import Mathlib.Data.List.Basic
import Mathlib.Tactic.IntervalCases

/-!
# UTF-8

Whether bytes are the UTF-8 of some text is decided by a scan with four
things to remember: how many bytes of the present character are still to
come, and the range of the next one. Bytes decode if the scan goes through and
nothing is left to come.

Two facts are wanted of it. Where a text is cut between characters, the rest
decodes as well (`decodes_append`); and a character has at most four bytes,
so a rest that is not empty starts with a piece of at most four that decodes
(`exists_decodes_take`). Together they let a reader page through a text.

The code points are read along with the scan (`decode`), and read back from the
bytes of a text (`decode_of_encode`).
-/

namespace Utf8

/-- **The state of a scan**: the bytes still to come, and the range of the next. -/
structure Scan where
  owed : ℕ
  low : UInt8
  high : UInt8
  deriving DecidableEq, Repr

/-- Between characters. -/
def Scan.start : Scan := ⟨0, 0x80, 0xBF⟩

/-- The first byte of a character. The ranges after `0xE0`, `0xED`, `0xF0` and `0xF4`
leave out overlong forms, surrogates and what is no code point. -/
def lead (b : UInt8) : Option Scan :=
  if b ≤ 0x7F then some .start
  else if b < 0xC2 then none
  else if b ≤ 0xDF then some ⟨1, 0x80, 0xBF⟩
  else if b = 0xE0 then some ⟨2, 0xA0, 0xBF⟩
  else if b = 0xED then some ⟨2, 0x80, 0x9F⟩
  else if b ≤ 0xEF then some ⟨2, 0x80, 0xBF⟩
  else if b = 0xF0 then some ⟨3, 0x90, 0xBF⟩
  else if b ≤ 0xF3 then some ⟨3, 0x80, 0xBF⟩
  else if b = 0xF4 then some ⟨3, 0x80, 0x8F⟩
  else none

/-- One byte. -/
def scan (s : Scan) (b : UInt8) : Option Scan :=
  if s.owed = 0 then lead b
  else if s.low ≤ b ∧ b ≤ s.high then some ⟨s.owed - 1, 0x80, 0xBF⟩
  else none

/-- The bytes complete the character a scan is in, and go on with whole ones. -/
def completes : Scan → List UInt8 → Bool
  | s, [] => s.owed = 0
  | s, b :: bytes =>
    match scan s b with
    | none => false
    | some s' => completes s' bytes

/-- **Bytes decode as UTF-8.** -/
def decodes (bytes : List UInt8) : Bool := completes .start bytes

-- The euro sign, and one of the halves of a surrogate pair.
example : decodes [0xE2, 0x82, 0xAC] = true ∧ decodes [0xED, 0xA0, 0x80] = false := by decide

/-- Between characters the range is of no interest. -/
theorem completes_of_owed {s : Scan} (h : s.owed = 0) (bytes : List UInt8) :
    completes s bytes = decodes bytes := by
  cases bytes with
  | nil => simp [decodes, completes, h, Scan.start]
  | cons b bytes => simp [decodes, completes, scan, h, Scan.start]

/-- A text cut between characters goes on with a text. -/
theorem completes_append {s : Scan} {front back : List UInt8} (h : completes s front = true) :
    completes s (front ++ back) = decodes back := by
  induction front generalizing s with
  | nil => exact completes_of_owed (by simpa [completes] using h) back
  | cons b front ih =>
    simp only [completes, List.cons_append] at h ⊢
    split at h
    · cases h
    · exact ih h

/-- **The rest behind a whole number of characters decodes.** -/
theorem decodes_append {front back : List UInt8} (h : decodes front = true) :
    decodes (front ++ back) = decodes back := completes_append h

/-- Bytes that complete a character do it with the bytes owed. -/
theorem completes_take {s : Scan} {bytes : List UInt8} (h : completes s bytes = true) :
    ∃ k ≤ s.owed, k ≤ bytes.length ∧ completes s (bytes.take k) = true := by
  induction bytes generalizing s with
  | nil => exact ⟨0, Nat.zero_le _, Nat.zero_le _, h⟩
  | cons b bytes ih =>
    by_cases howed : s.owed = 0
    · exact ⟨0, Nat.zero_le _, Nat.zero_le _, by simpa [completes] using howed⟩
    · simp only [completes] at h
      split at h
      · cases h
      · rename_i s' hscan
        obtain ⟨k, hk, hlength, htake⟩ := ih h
        have hs' : s'.owed + 1 ≤ s.owed := by
          unfold scan at hscan
          rw [if_neg howed] at hscan
          split at hscan
          · obtain rfl := Option.some.inj hscan
            show s.owed - 1 + 1 ≤ s.owed
            omega
          · cases hscan
        refine ⟨k + 1, by omega, by simpa using hlength, ?_⟩
        simp only [List.take_succ_cons, completes, hscan]
        exact htake

/-- A first byte announces at most three more. -/
theorem owed_lead {b : UInt8} {s : Scan} (h : lead b = some s) : s.owed ≤ 3 := by
  unfold lead at h
  split_ifs at h <;> obtain rfl := Option.some.inj h <;> decide

/-- **A text starts with a character of at most four bytes.** -/
theorem exists_decodes_take {bytes : List UInt8} (h : decodes bytes = true) (hne : bytes ≠ []) :
    ∃ k, 0 < k ∧ k ≤ 4 ∧ k ≤ bytes.length ∧ decodes (bytes.take k) = true := by
  cases bytes with
  | nil => exact absurd rfl hne
  | cons b bytes =>
    simp only [decodes, completes] at h
    split at h
    · cases h
    · rename_i s hscan
      obtain ⟨k, hk, hlength, htake⟩ := completes_take h
      have howed : s.owed ≤ 3 := owed_lead (b := b) (by simpa [scan, Scan.start] using hscan)
      refine ⟨k + 1, Nat.succ_pos k, by omega, by simpa using hlength, ?_⟩
      simp only [decodes, List.take_succ_cons, completes, hscan]
      exact htake

/-! ## Cutting -/

/-- **The longest piece of at most `n` bytes that decodes.** -/
def cut (bytes : List UInt8) : ℕ → ℕ
  | 0 => 0
  | n + 1 => if decodes (bytes.take (n + 1)) then n + 1 else cut bytes n

theorem cut_le (bytes : List UInt8) (n : ℕ) : cut bytes n ≤ n := by
  induction n with
  | zero => exact Nat.le_refl 0
  | succ n ih =>
    unfold cut
    split
    · exact Nat.le_refl _
    · exact Nat.le_succ_of_le ih

theorem le_cut {bytes : List UInt8} {k n : ℕ} (hk : k ≤ n) (h : decodes (bytes.take k) = true) :
    k ≤ cut bytes n := by
  induction n with
  | zero => exact hk
  | succ n ih =>
    unfold cut
    split
    · exact hk
    · rename_i hn
      by_cases hlast : k = n + 1
      · subst hlast
        exact absurd h hn
      · exact ih (by omega)

theorem decodes_cut (bytes : List UInt8) (n : ℕ) : decodes (bytes.take (cut bytes n)) = true := by
  induction n with
  | zero => rfl
  | succ n ih =>
    unfold cut
    split
    · assumption
    · exact ih

/-- **A piece of four bytes or more advances.** -/
theorem cut_pos {bytes : List UInt8} {n : ℕ} (h : decodes bytes = true) (hne : bytes ≠ [])
    (hn : 4 ≤ n) : 0 < cut bytes (min bytes.length n) := by
  obtain ⟨k, hpos, hk, hlength, htake⟩ := exists_decodes_take h hne
  have hcut := le_cut (n := min bytes.length n) (by omega) htake
  omega

/-! ## Code points -/

/-- The bits of a code point that its first byte holds. -/
def leadBits (b : UInt8) : ℕ :=
  if b ≤ 0x7F then b.toNat else if b ≤ 0xDF then b.toNat % 32
  else if b ≤ 0xEF then b.toNat % 16 else b.toNat % 8

/-- The code points of bytes, inside a character of which some bits were read. -/
def decodeFrom : Scan → ℕ → List UInt8 → Option (List ℕ)
  | s, _, [] => if s.owed = 0 then some [] else none
  | s, acc, b :: bytes =>
    match scan s b with
    | none => none
    | some s' =>
      let c := if s.owed = 0 then leadBits b else acc * 64 + b.toNat % 64
      if s'.owed = 0 then (decodeFrom s' c bytes).map (c :: ·) else decodeFrom s' c bytes

/-- **The code points of bytes**, if they decode. -/
def decode (bytes : List UInt8) : Option (List ℕ) := decodeFrom .start 0 bytes

/-- A code point that is no half of a surrogate pair. -/
def isScalar (c : ℕ) : Bool := (c < 0xd800 || 0xe000 ≤ c) && c < 0x110000

/-- The bytes of a code point. -/
def encodeChar (c : ℕ) : List UInt8 :=
  if c < 0x80 then [.ofNat c]
  else if c < 0x800 then [.ofNat (0xC0 + c / 64), .ofNat (0x80 + c % 64)]
  else if c < 0x10000 then
    [.ofNat (0xE0 + c / 4096), .ofNat (0x80 + c / 64 % 64), .ofNat (0x80 + c % 64)]
  else [.ofNat (0xF0 + c / 262144), .ofNat (0x80 + c / 4096 % 64), .ofNat (0x80 + c / 64 % 64),
    .ofNat (0x80 + c % 64)]

/-- **The bytes of a text**, if it has no half of a surrogate pair. -/
def encode (t : List ℕ) : Option (List UInt8) :=
  if t.all isScalar then some (t.flatMap encodeChar) else none

/-- Bytes have code points exactly if they decode. -/
theorem isSome_decodeFrom (s : Scan) (acc : ℕ) (bytes : List UInt8) :
    (decodeFrom s acc bytes).isSome = completes s bytes := by
  induction bytes generalizing s acc with
  | nil => by_cases h : s.owed = 0 <;> simp [decodeFrom, completes, h]
  | cons b bytes ih =>
    unfold decodeFrom completes
    cases scan s b with
    | none => rfl
    | some s' => by_cases h : s'.owed = 0 <;> simp [h, ih]

theorem isSome_decode (bytes : List UInt8) : (decode bytes).isSome = decodes bytes :=
  isSome_decodeFrom .start 0 bytes

theorem decodeFrom_of_owed {s : Scan} (h : s.owed = 0) (acc : ℕ) (bytes : List UInt8) :
    decodeFrom s acc bytes = decode bytes := by
  cases bytes with
  | nil => simp [decode, decodeFrom, h, Scan.start]
  | cons b bytes => simp [decode, decodeFrom, scan, h, Scan.start]

theorem toNat_ofNat {n : ℕ} (h : n < 256) : (UInt8.ofNat n).toNat = n := by
  simp [UInt8.toNat_ofNat', Nat.mod_eq_of_lt h]

theorem scan_ofNat {s : Scan} {n : ℕ} (hn : n < 256) (h : s.owed ≠ 0) (hlow : s.low.toNat ≤ n)
    (hhigh : n ≤ s.high.toNat) : scan s (UInt8.ofNat n) = some ⟨s.owed - 1, 0x80, 0xBF⟩ := by
  unfold scan
  rw [if_neg h, if_pos]
  rw [UInt8.le_iff_toNat_le, UInt8.le_iff_toNat_le, toNat_ofNat hn]
  exact ⟨hlow, hhigh⟩

/-- The first of two bytes. -/
theorem lead_two {n : ℕ} (h : 0xC2 ≤ n) (h' : n ≤ 0xDF) :
    lead (UInt8.ofNat n) = some ⟨1, 0x80, 0xBF⟩ ∧ leadBits (UInt8.ofNat n) = n - 0xC0 := by
  interval_cases n <;> exact ⟨rfl, rfl⟩

/-- The first of three bytes. -/
theorem lead_three {n : ℕ} (h : 0xE0 ≤ n) (h' : n ≤ 0xEF) :
    ∃ s, lead (UInt8.ofNat n) = some s ∧ leadBits (UInt8.ofNat n) = n - 0xE0 ∧ s.owed = 2 ∧
      s.low.toNat = (if n = 0xE0 then 0xA0 else 0x80) ∧
      s.high.toNat = (if n = 0xED then 0x9F else 0xBF) := by
  interval_cases n <;> exact ⟨_, rfl, rfl, rfl, rfl, rfl⟩

/-- The first of four bytes. -/
theorem lead_four {n : ℕ} (h : 0xF0 ≤ n) (h' : n ≤ 0xF4) :
    ∃ s, lead (UInt8.ofNat n) = some s ∧ leadBits (UInt8.ofNat n) = n - 0xF0 ∧ s.owed = 3 ∧
      s.low.toNat = (if n = 0xF0 then 0x90 else 0x80) ∧
      s.high.toNat = (if n = 0xF4 then 0x8F else 0xBF) := by
  interval_cases n <;> exact ⟨_, rfl, rfl, rfl, rfl, rfl⟩

theorem decode_lead {b : UInt8} {s : Scan} (h : lead b = some s) (hs : s.owed ≠ 0)
    (bytes : List UInt8) : decode (b :: bytes) = decodeFrom s (leadBits b) bytes := by
  simp [decode, decodeFrom, scan, Scan.start, h, hs]

theorem decodeFrom_next {n : ℕ} (hn : n < 256) {s : Scan} (h : 2 ≤ s.owed)
    (hlow : s.low.toNat ≤ n) (hhigh : n ≤ s.high.toNat) (acc : ℕ) (bytes : List UInt8) :
    decodeFrom s acc (UInt8.ofNat n :: bytes)
      = decodeFrom ⟨s.owed - 1, 0x80, 0xBF⟩ (acc * 64 + n % 64) bytes := by
  have h0 : s.owed ≠ 0 := by omega
  have h1 : s.owed - 1 ≠ 0 := by omega
  simp [decodeFrom, scan_ofNat hn h0 hlow hhigh, toNat_ofNat hn, h0, h1]

theorem decodeFrom_last {n : ℕ} (hn : n < 256) {s : Scan} (h : s.owed = 1)
    (hlow : s.low.toNat ≤ n) (hhigh : n ≤ s.high.toNat) (acc : ℕ) (bytes : List UInt8) :
    decodeFrom s acc (UInt8.ofNat n :: bytes)
      = (decode bytes).map ((acc * 64 + n % 64) :: ·) := by
  have h0 : s.owed ≠ 0 := by omega
  have h1 : s.owed - 1 = 0 := by omega
  simp [decodeFrom, scan_ofNat hn h0 hlow hhigh, toNat_ofNat hn, h0, h1, decodeFrom_of_owed]

/-- **A code point is read back from its bytes.** -/
theorem decode_encodeChar {c : ℕ} (h : isScalar c = true)
    (rest : List UInt8) : decode (encodeChar c ++ rest) = (decode rest).map (c :: ·) := by
  obtain ⟨hc, hmax⟩ : (c < 0xd800 ∨ 0xe000 ≤ c) ∧ c < 0x110000 := by simpa [isScalar] using h
  unfold encodeChar
  split_ifs with h1 h2 h3
  · have hbyte : lead (UInt8.ofNat c) = some .start ∧ leadBits (UInt8.ofNat c) = c := by
      have hle : UInt8.ofNat c ≤ 0x7F := by
        rw [UInt8.le_iff_toNat_le, toNat_ofNat (by omega)]
        exact Nat.le_of_lt_succ h1
      simp [lead, leadBits, hle, toNat_ofNat (show c < 256 by omega)]
    show decodeFrom .start 0 (UInt8.ofNat c :: rest) = _
    simp [decodeFrom, scan, Scan.start, hbyte, decodeFrom_of_owed]
  · obtain ⟨hlead, hbits⟩ := lead_two (n := 0xC0 + c / 64) (by omega) (by omega)
    have hsum : (0xC0 + c / 64 - 0xC0) * 64 + (0x80 + c % 64) % 64 = c := by omega
    simp only [List.cons_append, List.nil_append]
    rw [decode_lead hlead (by decide), hbits, decodeFrom_last (by omega) rfl
      (show 0x80 ≤ _ by omega) (show _ ≤ 0xBF by omega), hsum]
  · obtain ⟨s, hlead, hbits, howed, hlow, hhigh⟩ :=
      lead_three (n := 0xE0 + c / 4096) (by omega) (by omega)
    have hsum : ((0xE0 + c / 4096 - 0xE0) * 64 + (0x80 + c / 64 % 64) % 64) * 64 +
        (0x80 + c % 64) % 64 = c := by omega
    simp only [List.cons_append, List.nil_append]
    rw [decode_lead hlead (by omega), hbits, decodeFrom_next (by omega) (by omega)
      (by rw [hlow]; split_ifs <;> omega) (by rw [hhigh]; split_ifs <;> omega),
      decodeFrom_last (by omega) (by simp [howed]) (show 0x80 ≤ _ by omega)
        (show _ ≤ 0xBF by omega), hsum]
  · obtain ⟨s, hlead, hbits, howed, hlow, hhigh⟩ :=
      lead_four (n := 0xF0 + c / 262144) (by omega) (by omega)
    have hsum : (((0xF0 + c / 262144 - 0xF0) * 64 + (0x80 + c / 4096 % 64) % 64) * 64 +
        (0x80 + c / 64 % 64) % 64) * 64 + (0x80 + c % 64) % 64 = c := by omega
    simp only [List.cons_append, List.nil_append]
    rw [decode_lead hlead (by omega), hbits, decodeFrom_next (by omega) (by omega)
      (by rw [hlow]; split_ifs <;> omega) (by rw [hhigh]; split_ifs <;> omega),
      decodeFrom_next (by omega) (by simp [howed]) (show 0x80 ≤ _ by omega)
        (show _ ≤ 0xBF by omega),
      decodeFrom_last (by omega) (by simp [howed]) (show 0x80 ≤ _ by omega)
        (show _ ≤ 0xBF by omega), hsum]

/-- **A text is read back from its bytes.** -/
theorem decode_of_encode {t : List ℕ} {bytes : List UInt8} (h : encode t = some bytes) :
    decode bytes = some t := by
  have hread : ∀ u : List ℕ, u.all isScalar = true → decode (u.flatMap encodeChar) = some u := by
    intro u hu
    induction u with
    | nil => rfl
    | cons c u ih =>
      obtain ⟨hc, hu⟩ := Bool.and_eq_true_iff.mp (List.all_cons ▸ hu)
      rw [List.flatMap_cons, decode_encodeChar hc, ih hu]
      rfl
  unfold encode at h
  split_ifs at h with hall
  obtain rfl := Option.some.inj h
  exact hread t hall

-- A character of each length, and half a surrogate pair.
example : (encode [0x41, 0xe9, 0x20ac, 0x1f600]).bind decode = some [0x41, 0xe9, 0x20ac, 0x1f600] ∧
    encode [0xd83d] = none := by decide

/-! ## Prefixes -/

/-- What comes behind bytes that decode is decoded for itself. -/
theorem decodeFrom_append {s : Scan} {acc : ℕ} {front : List UInt8} {t : List ℕ}
    (h : decodeFrom s acc front = some t) (back : List UInt8) :
    decodeFrom s acc (front ++ back) = (decode back).map (t ++ ·) := by
  induction front generalizing s acc t with
  | nil =>
    by_cases howed : s.owed = 0
    · obtain rfl : [] = t := by simpa [decodeFrom, howed] using h
      rw [List.nil_append, decodeFrom_of_owed howed]
      cases decode back <;> rfl
    · simp [decodeFrom, howed] at h
  | cons b front ih =>
    simp only [List.cons_append, decodeFrom] at h ⊢
    cases hscan : scan s b with
    | none => simp [hscan] at h
    | some s' =>
      by_cases howed : s'.owed = 0
      · simp only [hscan, if_pos howed] at h ⊢
        obtain ⟨u, hu, rfl⟩ := Option.map_eq_some_iff.mp h
        rw [ih hu, Option.map_map]
        rfl
      · simp only [hscan, if_neg howed] at h ⊢
        exact ih h

theorem decode_append {front back : List UInt8} {t : List ℕ} (h : decode front = some t) :
    decode (front ++ back) = (decode back).map (t ++ ·) := decodeFrom_append h back

/-- Bytes have a character, unless there are none. -/
theorem decodeFrom_ne_nil {s : Scan} (acc : ℕ) {bytes : List UInt8} (h : s.owed ≠ 0 ∨ bytes ≠ []) :
    decodeFrom s acc bytes ≠ some [] := by
  induction bytes generalizing s acc with
  | nil => simp [decodeFrom, h.resolve_right (by simp)]
  | cons b bytes ih =>
    rw [decodeFrom]
    cases scan s b with
    | none => simp
    | some s' =>
      by_cases howed : s'.owed = 0
      · simp [howed]
      · simp only [if_neg howed]
        exact ih _ (Or.inl howed)

theorem eq_nil_of_decode {bytes : List UInt8} (h : decode bytes = some []) : bytes = [] := by
  by_contra hne
  exact decodeFrom_ne_nil 0 (Or.inr hne) h

/-- **A prefix that decodes ends between two characters.** -/
theorem take_of_decodes {t : List ℕ} (ht : t.all isScalar = true) {k : ℕ}
    (h : decodes ((t.flatMap encodeChar).take k) = true) :
    ∃ front, front <+: t ∧ (t.flatMap encodeChar).take k = front.flatMap encodeChar := by
  induction t generalizing k with
  | nil => exact ⟨[], List.prefix_rfl, by simp⟩
  | cons c t ih =>
    obtain ⟨hc, ht⟩ := Bool.and_eq_true_iff.mp (List.all_cons ▸ ht)
    rw [List.flatMap_cons] at h ⊢
    have hchar : decode (encodeChar c) = some [c] := by
      have hread := decode_encodeChar hc []
      rwa [List.append_nil] at hread
    rcases le_or_gt (encodeChar c).length k with hle | hlt
    · obtain ⟨j, rfl⟩ := Nat.exists_eq_add_of_le hle
      rw [List.take_length_add_append] at h ⊢
      have hrest : decodes ((t.flatMap encodeChar).take j) = true := by
        rwa [decodes_append (by rw [← isSome_decode, hchar]; rfl)] at h
      obtain ⟨front, hfront, htake⟩ := ih ht hrest
      exact ⟨c :: front, List.cons_prefix_cons.mpr ⟨rfl, hfront⟩, by rw [htake, List.flatMap_cons]⟩
    · refine ⟨[], List.nil_prefix, ?_⟩
      rw [List.take_append_of_le_length hlt.le] at h ⊢
      -- The character cannot be split: its first bytes would be all of it.
      rw [← isSome_decode] at h
      obtain ⟨u, hu⟩ := Option.isSome_iff_exists.mp h
      have hsplit : decode (encodeChar c) = (decode ((encodeChar c).drop k)).map (u ++ ·) := by
        rw [← decode_append hu, List.take_append_drop]
      rw [hchar] at hsplit
      obtain ⟨w, hw, huw⟩ := Option.map_eq_some_iff.mp hsplit.symm
      have hback : w ≠ [] := by
        rintro rfl
        have hnil := congrArg List.length (eq_nil_of_decode hw)
        rw [List.length_drop, List.length_nil] at hnil
        omega
      obtain rfl : u = [] := by
        cases u with
        | nil => rfl
        | cons d u => simp_all
      exact eq_nil_of_decode hu

end Utf8
