import Mathlib.Data.List.DropRight
import Mathlib.Data.List.Basic

/-!
# Base64 for URLs

Three bytes are four digits of six bits. A last group of one or two bytes is filled up with
padding, which may be left out, as the length of the text tells how much there was.

A reader takes the digits of both alphabets, passes over anything that is no digit, and
stops where a group is complete with its padding. What it reads from the digits of some
bytes are these bytes (`decode_encode`).
-/

namespace Base64

/-- A digit of the alphabet for URLs. -/
def digit (n : ℕ) : Char :=
  if n < 26 then Char.ofNat (0x41 + n)
  else if n < 52 then Char.ofNat (0x61 + (n - 26))
  else if n < 62 then Char.ofNat (0x30 + (n - 52))
  else if n = 62 then '-'
  else '_'

/-- The padding. -/
def pad : Char := '='

/-- **`base64.urlsafe_b64encode`**. -/
def encode : List UInt8 → List Char
  | [] => []
  | [a] => [digit (a.toNat / 4), digit (a.toNat % 4 * 16), pad, pad]
  | [a, b] =>
    [digit (a.toNat / 4), digit (a.toNat % 4 * 16 + b.toNat / 16), digit (b.toNat % 16 * 4), pad]
  | a :: b :: c :: bytes =>
    digit (a.toNat / 4) :: digit (a.toNat % 4 * 16 + b.toNat / 16) ::
      digit (b.toNat % 16 * 4 + c.toNat / 64) :: digit (c.toNat % 64) :: encode bytes

/-- The value of a digit, of either alphabet. -/
def value (c : Char) : Option ℕ :=
  if 'A' ≤ c ∧ c ≤ 'Z' then some (c.toNat - 0x41)
  else if 'a' ≤ c ∧ c ≤ 'z' then some (c.toNat - 0x61 + 26)
  else if '0' ≤ c ∧ c ≤ '9' then some (c.toNat - 0x30 + 52)
  else if c = '-' ∨ c = '+' then some 62
  else if c = '_' ∨ c = '/' then some 63
  else none

/-- Read on, inside a group of which some digits were read. `carry` are the bits that are in
no byte yet, and `pads` the padding that was read. -/
def decodeFrom (digits carry pads : ℕ) : List Char → Option (List UInt8)
  | [] => if digits = 0 then some [] else none
  | c :: cs =>
    if c = pad then
      if 2 ≤ digits ∧ 4 ≤ digits + (pads + 1) then some []
      else decodeFrom digits carry (if 2 ≤ digits then pads + 1 else pads) cs
    else
      match value c with
      | none => decodeFrom digits carry pads cs
      | some v =>
        match digits with
        | 0 => decodeFrom 1 v 0 cs
        | 1 => (decodeFrom 2 (v % 16) 0 cs).map (.ofNat (carry * 4 + v / 16) :: ·)
        | 2 => (decodeFrom 3 (v % 4) 0 cs).map (.ofNat (carry * 16 + v / 4) :: ·)
        | _ => (decodeFrom 0 0 0 cs).map (.ofNat (carry * 64 + v) :: ·)

/-- **`base64.urlsafe_b64decode`**: a text that is not ASCII has no bytes. -/
def decode (cs : List Char) : Option (List UInt8) :=
  if cs.all (·.toNat < 0x80) then decodeFrom 0 0 0 cs else none

/-! ## Reading back -/

theorem value_digit : ∀ n < 64, value (digit n) = some n := by decide

theorem digit_ne_pad : ∀ n < 64, digit n ≠ pad := by decide

theorem digit_ascii : ∀ n < 64, (digit n).toNat < 0x80 := by decide

/-- A digit is read. -/
theorem decodeFrom_digit {n : ℕ} (hn : n < 64) (digits carry pads : ℕ) (cs : List Char) :
    decodeFrom digits carry pads (digit n :: cs) =
      match digits with
      | 0 => decodeFrom 1 n 0 cs
      | 1 => (decodeFrom 2 (n % 16) 0 cs).map (.ofNat (carry * 4 + n / 16) :: ·)
      | 2 => (decodeFrom 3 (n % 4) 0 cs).map (.ofNat (carry * 16 + n / 4) :: ·)
      | _ => (decodeFrom 0 0 0 cs).map (.ofNat (carry * 64 + n) :: ·) := by
  rw [decodeFrom, if_neg (digit_ne_pad n hn), value_digit n hn]

/-- A byte is read from the digits that have its bits. -/
theorem ofNat_eq {a : UInt8} {n : ℕ} (h : n = a.toNat) : UInt8.ofNat n = a := by
  rw [h, UInt8.ofNat_toNat]

theorem decodeFrom_encode (bytes : List UInt8) (pads : ℕ) :
    decodeFrom 0 0 pads (encode bytes) = some bytes := by
  induction bytes using encode.induct generalizing pads with
  | case1 => rfl
  | case2 a =>
    have ha := a.toNat_lt
    rw [encode, decodeFrom_digit (by omega), decodeFrom_digit (by omega)]
    show Option.map _ (some []) = _
    rw [Option.map_some, ofNat_eq (a := a) (by omega)]
  | case3 a b =>
    have ha := a.toNat_lt
    have hb := b.toNat_lt
    rw [encode, decodeFrom_digit (by omega)]
    show decodeFrom 1 _ 0 _ = _
    rw [decodeFrom_digit (by omega)]
    show Option.map _ (decodeFrom 2 _ 0 _) = _
    rw [decodeFrom_digit (by omega)]
    show Option.map _ (Option.map _ (some [])) = _
    rw [Option.map_some, Option.map_some, ofNat_eq (a := a) (by omega), ofNat_eq (a := b) (by omega)]
  | case4 a b c bytes ih =>
    have ha := a.toNat_lt
    have hb := b.toNat_lt
    have hc := c.toNat_lt
    rw [encode, decodeFrom_digit (by omega)]
    show decodeFrom 1 _ 0 _ = _
    rw [decodeFrom_digit (by omega)]
    show Option.map _ (decodeFrom 2 _ 0 _) = _
    rw [decodeFrom_digit (by omega)]
    show Option.map _ (Option.map _ (decodeFrom 3 _ 0 _)) = _
    rw [decodeFrom_digit (by omega)]
    show Option.map _ (Option.map _ (Option.map _ (decodeFrom 0 0 0 _))) = _
    rw [ih, Option.map_some, Option.map_some, Option.map_some, ofNat_eq (a := a) (by omega),
      ofNat_eq (a := b) (by omega), ofNat_eq (a := c) (by omega)]

/-! ## Padding -/

/-- The digits without the padding, `rstrip("=")`. -/
def unpadded (cs : List Char) : List Char := cs.rdropWhile (· = pad)

/-- The padding that a text lacks. -/
def padded (cs : List Char) : List Char := cs ++ List.replicate ((4 - cs.length % 4) % 4) pad

/-- The digits of some bytes, and the padding behind them. -/
theorem encode_eq (bytes : List UInt8) :
    ∃ cs k, encode bytes = cs ++ List.replicate k pad ∧ (∀ c ∈ cs, c ≠ pad ∧ c.toNat < 0x80) ∧
      k = (4 - cs.length % 4) % 4 := by
  have hdigit : ∀ {n : ℕ}, n < 64 → digit n ≠ pad ∧ (digit n).toNat < 0x80 :=
    fun hn => ⟨digit_ne_pad _ hn, digit_ascii _ hn⟩
  induction bytes using encode.induct with
  | case1 => exact ⟨[], 0, rfl, by simp, rfl⟩
  | case2 a =>
    have ha := a.toNat_lt
    refine ⟨[_, _], 2, rfl, ?_, rfl⟩
    simp only [List.forall_mem_cons, List.not_mem_nil, false_implies, implies_true, and_true]
    exact ⟨hdigit (by omega), hdigit (by omega)⟩
  | case3 a b =>
    have ha := a.toNat_lt
    have hb := b.toNat_lt
    refine ⟨[_, _, _], 1, rfl, ?_, rfl⟩
    simp only [List.forall_mem_cons, List.not_mem_nil, false_implies, implies_true, and_true]
    exact ⟨hdigit (by omega), hdigit (by omega), hdigit (by omega)⟩
  | case4 a b c bytes ih =>
    obtain ⟨cs, k, heq, hcs, hk⟩ := ih
    have ha := a.toNat_lt
    have hb := b.toNat_lt
    have hc := c.toNat_lt
    refine ⟨_ :: _ :: _ :: _ :: cs, k, by rw [encode, heq]; rfl, ?_, ?_⟩
    · simp only [List.forall_mem_cons]
      exact ⟨hdigit (by omega), hdigit (by omega), hdigit (by omega), hdigit (by omega), hcs⟩
    · simp only [List.length_cons]
      omega

theorem unpadded_append {cs : List Char} (hcs : ∀ c ∈ cs, c ≠ pad) (k : ℕ) :
    unpadded (cs ++ List.replicate k pad) = cs := by
  unfold unpadded
  induction k with
  | zero =>
    rw [List.replicate_zero, List.append_nil, List.rdropWhile_eq_self_iff]
    exact fun hne => by simpa using hcs _ (List.getLast_mem hne)
  | succ k ih =>
    rw [List.replicate_succ', ← List.append_assoc, List.rdropWhile_concat_pos _ _ _ (by simp), ih]

/-- **Bytes are read back from their digits**, though the padding was left out. -/
theorem decode_encode (bytes : List UInt8) :
    decode (padded (unpadded (encode bytes))) = some bytes := by
  obtain ⟨cs, k, heq, hcs, hk⟩ := encode_eq bytes
  have hpadded : padded (unpadded (encode bytes)) = encode bytes := by
    rw [heq, unpadded_append fun c hc => (hcs c hc).1, padded, ← hk]
  have hascii : (encode bytes).all (·.toNat < 0x80) = true := by
    rw [List.all_eq_true, heq]
    intro c hc
    rcases List.mem_append.mp hc with hc | hc
    · exact decide_eq_true (hcs c hc).2
    · obtain rfl := (List.mem_replicate.mp hc).2
      rfl
  rw [hpadded, decode, if_pos hascii, decodeFrom_encode]

end Base64
