import Mathlib.Data.List.Basic
import Mathlib.Data.List.Induction
import Mathlib.Data.Nat.Notation
import Mathlib.Data.Vector.Basic

/-!
# Frames of a WebSocket

A frame is a byte with flags and an opcode, the length of its content in one of three widths,
the key of its mask if it has one, and the content. A stream of bytes is a sequence of frames
and a piece that is not yet a whole one, in one way only (`Frame.read_bytes`,
`Frame.bytes_of_read`): so what a reader finds in a stream is a matter of its frames, and a
stream that breaks off loses the last frame and no other.

Lengths may be written in more bytes than they need, and three bits of the first byte are
reserved. A frame here keeps the width it was written with, and all of its first byte, so
that any stream is one of frames.
-/

namespace WebSocket

/-! ## Numbers in network order -/

/-- A number in some bytes, the most significant one first. -/
def bigEndian : ℕ → ℕ → List UInt8
  | 0, _ => []
  | k + 1, n => bigEndian k (n / 256) ++ [UInt8.ofNat n]

/-- The number that bytes stand for. -/
def ofBigEndian (bytes : List UInt8) : ℕ := bytes.foldl (fun n b => n * 256 + b.toNat) 0

@[simp] theorem length_bigEndian (k n : ℕ) : (bigEndian k n).length = k := by
  induction k generalizing n with
  | zero => rfl
  | succ k ih => rw [bigEndian, List.length_append, ih]; rfl

@[simp] theorem ofBigEndian_concat (bytes : List UInt8) (b : UInt8) :
    ofBigEndian (bytes ++ [b]) = ofBigEndian bytes * 256 + b.toNat := by
  simp [ofBigEndian]

/-- A number is read back, if there are bytes enough for it. -/
theorem ofBigEndian_bigEndian {k n : ℕ} (h : n < 256 ^ k) : ofBigEndian (bigEndian k n) = n := by
  induction k generalizing n with
  | zero => exact (Nat.lt_one_iff.mp h).symm
  | succ k ih =>
    have hquot : n / 256 < 256 ^ k := Nat.div_lt_of_lt_mul (by rw [← pow_succ']; exact h)
    rw [bigEndian, ofBigEndian_concat, ih hquot, UInt8.toNat_ofNat']
    omega

theorem ofBigEndian_lt (bytes : List UInt8) : ofBigEndian bytes < 256 ^ bytes.length := by
  induction bytes using List.reverseRecOn with
  | nil => exact Nat.one_pos
  | append_singleton bytes b ih =>
    have hb := b.toNat_lt
    rw [ofBigEndian_concat, List.length_append, List.length_singleton, pow_succ]
    omega

/-- Bytes are those of the number they stand for. -/
theorem bigEndian_ofBigEndian (bytes : List UInt8) :
    bigEndian bytes.length (ofBigEndian bytes) = bytes := by
  induction bytes using List.reverseRecOn with
  | nil => rfl
  | append_singleton bytes b ih =>
    have hb : b.toNat < 256 := b.toNat_lt
    have hquot : (ofBigEndian bytes * 256 + b.toNat) / 256 = ofBigEndian bytes := by omega
    have hlast : UInt8.ofNat (ofBigEndian bytes * 256 + b.toNat) = b := by
      apply UInt8.toNat_inj.mp
      rw [UInt8.toNat_ofNat']
      omega
    rw [List.length_append, List.length_singleton, bigEndian, ofBigEndian_concat, hquot, hlast, ih]

/-! ## Pieces of a stream -/

/-- Some bytes off the front of a stream, if they are there. -/
def take (n : ℕ) (stream : List UInt8) : Option (List.Vector UInt8 n × List UInt8) :=
  if h : n ≤ stream.length then some (⟨stream.take n, List.length_take_of_le h⟩, stream.drop n)
  else none

theorem take_append {n : ℕ} (v : List.Vector UInt8 n) (rest : List UInt8) :
    take n (v.toList ++ rest) = some (v, rest) := by
  have hle : n ≤ (v.toList ++ rest).length := by simp
  rw [take, dif_pos hle]
  congr 2
  · exact Subtype.ext (List.take_left' v.toList_length)
  · exact List.drop_left' v.toList_length

theorem of_take {n : ℕ} {stream rest : List UInt8} {v : List.Vector UInt8 n}
    (h : take n stream = some (v, rest)) : stream = v.toList ++ rest := by
  unfold take at h
  split_ifs at h
  obtain ⟨rfl, rfl⟩ := Prod.mk.inj (Option.some.inj h)
  exact (List.take_append_drop n stream).symm

theorem ofBigEndian_vector_lt {n : ℕ} (v : List.Vector UInt8 n) :
    ofBigEndian v.toList < 256 ^ n := by
  have hlt := ofBigEndian_lt v.toList
  rwa [v.toList_length] at hlt

theorem bigEndian_ofBigEndian_vector {n : ℕ} (v : List.Vector UInt8 n) :
    bigEndian n (ofBigEndian v.toList) = v.toList := by
  have hbytes := bigEndian_ofBigEndian v.toList
  rwa [v.toList_length] at hbytes

/-! ## Masks -/

/-- A payload under the key of a mask; without a key it stays what it is. -/
def masked (key payload : List UInt8) : List UInt8 :=
  payload.mapIdx fun index byte => byte ^^^ key.getD (index % 4) 0

@[simp] theorem length_masked (key payload : List UInt8) :
    (masked key payload).length = payload.length := List.length_mapIdx

/-- A mask that is put on twice is taken off. -/
@[simp] theorem masked_masked (key payload : List UInt8) :
    masked key (masked key payload) = payload := by
  ext1 i
  simp only [masked, List.getElem?_mapIdx, Option.map_map]
  cases payload[i]? with
  | none => rfl
  | some b => simp [UInt8.xor_assoc]

@[simp] theorem masked_nil (payload : List UInt8) : masked [] payload = payload := by
  ext1 i
  simp [masked]

/-! ## Lengths -/

/-- The width in which a length is written. -/
inductive Width where
  | seven | sixteen | sixtyFour
deriving DecidableEq

/-- The lengths of a width. -/
def Width.bound : Width → ℕ
  | seven => 126
  | sixteen => 256 ^ 2
  | sixtyFour => 256 ^ 8

/-- **A length** in its width. -/
structure Length where
  width : Width
  size : ℕ
  fits : size < width.bound

namespace Length

/-- The seven bits of the second byte. -/
def code (l : Length) : ℕ :=
  match l.width with
  | .seven => l.size
  | .sixteen => 126
  | .sixtyFour => 127

/-- The bytes behind the second one. -/
def extended (l : Length) : List UInt8 :=
  match l.width with
  | .seven => []
  | .sixteen => bigEndian 2 l.size
  | .sixtyFour => bigEndian 8 l.size

/-- A length in the least width, of those that can be written. -/
def ofSize (size : ℕ) (h : size < 256 ^ 8) : Length :=
  if hseven : size < 126 then ⟨.seven, size, hseven⟩
  else if hsixteen : size ≤ 0xffff then ⟨.sixteen, size, Nat.lt_succ_of_le hsixteen⟩
  else ⟨.sixtyFour, size, h⟩

/-- The length at the front of a stream, behind the seven bits. -/
def read (code : ℕ) (stream : List UInt8) : Option (Length × List UInt8) :=
  if h : code < 126 then some (⟨.seven, code, h⟩, stream)
  else if code = 126 then
    (take 2 stream).map fun (bytes, rest) =>
      (⟨.sixteen, ofBigEndian bytes.toList, ofBigEndian_vector_lt bytes⟩, rest)
  else
    (take 8 stream).map fun (bytes, rest) =>
      (⟨.sixtyFour, ofBigEndian bytes.toList, ofBigEndian_vector_lt bytes⟩, rest)

theorem code_lt (l : Length) : l.code < 128 := by
  obtain ⟨width, size, fits⟩ := l
  cases width with
  | seven => exact fits.trans (by decide)
  | sixteen => show 126 < 128; decide
  | sixtyFour => show 127 < 128; decide

@[simp] theorem size_ofSize {size : ℕ} (h : size < 256 ^ 8) : (ofSize size h).size = size := by
  unfold ofSize
  split_ifs <;> rfl

theorem read_extended (l : Length) (rest : List UInt8) :
    read l.code (l.extended ++ rest) = some (l, rest) := by
  obtain ⟨width, size, fits⟩ := l
  cases width with
  | seven =>
    have hfits : size < 126 := fits
    simp [read, code, extended, hfits]
  | sixteen =>
    have htake := take_append ⟨bigEndian 2 size, length_bigEndian 2 size⟩ rest
    simp only [List.Vector.toList] at htake
    have hsize : ofBigEndian (bigEndian 2 size) = size := ofBigEndian_bigEndian fits
    simp [read, code, extended, htake, List.Vector.toList, hsize]
  | sixtyFour =>
    have htake := take_append ⟨bigEndian 8 size, length_bigEndian 8 size⟩ rest
    simp only [List.Vector.toList] at htake
    have hsize : ofBigEndian (bigEndian 8 size) = size := ofBigEndian_bigEndian fits
    simp [read, code, extended, htake, List.Vector.toList, hsize]

theorem of_read {n : ℕ} {stream rest : List UInt8} {l : Length} (hn : n < 128)
    (h : read n stream = some (l, rest)) : n = l.code ∧ stream = l.extended ++ rest := by
  unfold read at h
  split_ifs at h with hseven hsixteen
  · obtain ⟨rfl, rfl⟩ := Prod.mk.inj (Option.some.inj h)
    exact ⟨rfl, rfl⟩
  · obtain ⟨⟨bytes, tail⟩, htake, hmk⟩ := Option.map_eq_some_iff.mp h
    obtain ⟨rfl, rfl⟩ := Prod.mk.inj hmk
    refine ⟨hsixteen, ?_⟩
    show stream = bigEndian 2 (ofBigEndian bytes.toList) ++ tail
    rw [bigEndian_ofBigEndian_vector]
    exact of_take htake
  · obtain ⟨⟨bytes, tail⟩, htake, hmk⟩ := Option.map_eq_some_iff.mp h
    obtain ⟨rfl, rfl⟩ := Prod.mk.inj hmk
    refine ⟨show n = 127 by omega, ?_⟩
    show stream = bigEndian 8 (ofBigEndian bytes.toList) ++ tail
    rw [bigEndian_ofBigEndian_vector]
    exact of_take htake

end Length

/-! ## Frames -/

/-- **The front of a frame**: a byte with flags and an opcode, whether there is a mask, and the
length of the content. -/
structure Header where
  first : UInt8
  masked : Bool
  length : Length

/-- The bit that says there is a mask. -/
def maskBit (masked : Bool) : UInt8 := if masked then 0x80 else 0

namespace Header

/-- Is the frame the last one of its message? -/
def final (h : Header) : Bool := h.first &&& 0x80 ≠ 0

/-- The kind of frame. -/
def opcode (h : Header) : UInt8 := h.first &&& 0x0f

def bytes (h : Header) : List UInt8 :=
  h.first :: (maskBit h.masked ||| UInt8.ofNat h.length.code) :: h.length.extended

/-- The front of a frame at the front of a stream. -/
def read : List UInt8 → Option (Header × List UInt8)
  | first :: second :: stream =>
    (Length.read (second &&& 0x7f).toNat stream).map fun (length, rest) =>
      (⟨first, second &&& 0x80 ≠ 0, length⟩, rest)
  | _ => none

end Header

/-- **A frame** as it is on the wire. -/
structure Frame extends Header where
  key : List.Vector UInt8 (if masked then 4 else 0)
  content : List.Vector UInt8 length.size

namespace Frame

/-- What a frame carries. -/
def payload (f : Frame) : List UInt8 := WebSocket.masked f.key.toList f.content.toList

def bytes (f : Frame) : List UInt8 := f.toHeader.bytes ++ (f.key.toList ++ f.content.toList)

/-- The frame at the front of a stream, if all of it is there. -/
def read (stream : List UInt8) : Option (Frame × List UInt8) := do
  let (header, stream) ← Header.read stream
  let (key, stream) ← take _ stream
  let (content, stream) ← take _ stream
  return (⟨header, key, content⟩, stream)

end Frame

/-! ### The second byte -/

theorem second_bits : ∀ n : Fin 128, ∀ masked : Bool,
    ((maskBit masked ||| UInt8.ofNat n) &&& 0x7f).toNat = n ∧
      decide ((maskBit masked ||| UInt8.ofNat n) &&& 0x80 ≠ 0) = masked := by
  decide +kernel

theorem second_eq : ∀ n : Fin 256,
    maskBit (decide (UInt8.ofNat n &&& 0x80 ≠ 0)) ||| UInt8.ofNat (UInt8.ofNat n &&& 0x7f).toNat
      = UInt8.ofNat n := by
  decide +kernel

theorem seven_lt (b : UInt8) : (b &&& 0x7f).toNat < 128 := by
  rw [UInt8.toNat_and]
  exact Nat.and_lt_two_pow b.toNat (show _ < 2 ^ 7 by decide)

namespace Header

theorem read_bytes (h : Header) (rest : List UInt8) : read (h.bytes ++ rest) = some (h, rest) := by
  obtain ⟨first, masked, length⟩ := h
  have hbits := second_bits ⟨length.code, length.code_lt⟩ masked
  show (Length.read _ (length.extended ++ rest)).map _ = _
  rw [hbits.1, length.read_extended, hbits.2]
  rfl

theorem bytes_of_read {stream rest : List UInt8} {h : Header}
    (hread : read stream = some (h, rest)) : stream = h.bytes ++ rest := by
  match stream, hread with
  | first :: second :: stream, hread =>
    obtain ⟨⟨length, tail⟩, hlength, hmk⟩ := Option.map_eq_some_iff.mp hread
    obtain ⟨rfl, rfl⟩ := Prod.mk.inj hmk
    obtain ⟨hcode, hstream⟩ := Length.of_read (seven_lt second) hlength
    have hsecond := second_eq ⟨second.toNat, second.toNat_lt⟩
    rw [UInt8.ofNat_toNat] at hsecond
    show first :: second :: stream = first :: (_ ||| UInt8.ofNat length.code) :: (_ ++ tail)
    rw [← hcode, hsecond, hstream]

end Header

namespace Frame

variable {stream rest : List UInt8} {f : Frame}

/-- **A frame is read back**, whatever comes behind it. -/
@[simp] theorem read_bytes (f : Frame) (rest : List UInt8) :
    read (f.bytes ++ rest) = some (f, rest) := by
  rw [read, bytes, List.append_assoc, List.append_assoc, Header.read_bytes]
  show (take _ (f.key.toList ++ (f.content.toList ++ rest))).bind _ = _
  rw [take_append]
  show (take _ (f.content.toList ++ rest)).bind _ = _
  rw [take_append]
  rfl

/-- **What is read is the front of the stream.** -/
theorem bytes_of_read (h : read stream = some (f, rest)) : stream = f.bytes ++ rest := by
  unfold read at h
  obtain ⟨⟨header, stream'⟩, hheader, h⟩ := Option.bind_eq_some_iff.mp h
  obtain ⟨⟨key, stream''⟩, hkey, h⟩ := Option.bind_eq_some_iff.mp h
  obtain ⟨⟨content, tail⟩, hcontent, h⟩ := Option.bind_eq_some_iff.mp h
  obtain ⟨rfl, rfl⟩ := Prod.mk.inj (Option.some.inj h)
  rw [Header.bytes_of_read hheader, of_take hkey, of_take hcontent]
  simp [bytes]

theorem two_le_length (f : Frame) : 2 ≤ f.bytes.length := by
  simp [bytes, Header.bytes]

theorem length_of_read (h : read stream = some (f, rest)) : rest.length < stream.length := by
  have hpos := f.two_le_length
  rw [bytes_of_read h, List.length_append]
  omega

end Frame

/-! ## Streams -/

/-- **The frames of a stream**, and what is left of it when no frame is whole any more. -/
def frames (stream : List UInt8) : List Frame × List UInt8 :=
  match h : Frame.read stream with
  | none => ([], stream)
  | some (f, rest) =>
    have := Frame.length_of_read h
    (f :: (frames rest).1, (frames rest).2)
termination_by stream.length

variable {fs : List Frame} {torn : List UInt8}

theorem frames_of_none (h : Frame.read torn = none) : frames torn = ([], torn) := by
  rw [frames]
  split
  · rfl
  · next hread => simp [hread] at h

theorem frames_cons (f : Frame) (rest : List UInt8) :
    frames (f.bytes ++ rest) = (f :: (frames rest).1, (frames rest).2) := by
  rw [frames]
  split
  · next hread => simp at hread
  · next hread =>
    obtain ⟨rfl, rfl⟩ := Prod.mk.inj (Option.some.inj ((Frame.read_bytes f rest).symm.trans hread))
    rfl

/-- **The frames that were written are read**, before what comes behind them. -/
theorem frames_append (fs : List Frame) (rest : List UInt8) :
    frames (fs.flatMap Frame.bytes ++ rest) = (fs ++ (frames rest).1, (frames rest).2) := by
  induction fs with
  | nil => rfl
  | cons f fs ih => rw [List.flatMap_cons, List.append_assoc, frames_cons, ih, List.cons_append]

theorem frames_flatMap (fs : List Frame) : frames (fs.flatMap Frame.bytes) = (fs, []) := by
  have hnil : frames [] = ([], []) := frames_of_none rfl
  have hfs := frames_append fs []
  rwa [hnil, List.append_nil, List.append_nil] at hfs

/-- **A stream is what its frames are**, and a piece that is no frame. -/
theorem flatMap_frames (stream : List UInt8) :
    stream = (frames stream).1.flatMap Frame.bytes ++ (frames stream).2 ∧
      Frame.read (frames stream).2 = none := by
  induction stream using frames.induct with
  | case1 stream h =>
    rw [frames_of_none h]
    exact ⟨rfl, h⟩
  | case2 stream f rest h _ ih =>
    rw [Frame.bytes_of_read h, frames_cons, List.flatMap_cons, List.append_assoc, ← ih.1]
    exact ⟨rfl, ih.2⟩

end WebSocket
