import Mathlib.Data.List.Basic
import TypedQueries.Proofs.Characters
import TypedQueries.Proofs.LineFeeds
import TypedQueries.Proofs.Naming
import TypedQueries.Proofs.Results

/-!
# Reading back the bytes of a text

Decoding undoes encoding, and encoding undoes decoding: a text is read from the bytes that it is
written as and from no others. A file that begins with the comments of a companion does not name its
encoding, and the lines of a text take as many bytes in its file as they do by themselves.
-/

namespace TypedQueries.Text.Utf8

theorem lead?_ascii {n : Nat} (h : n < 0x80) :
    lead? (UInt8.ofNat n) = some (n, 0, 0x80, 0xbf) := by
  have hn : (UInt8.ofNat n).toNat = n := by simp; omega
  simp only [lead?, UInt8.lt_iff_toNat_lt, hn, UInt8.reduceToNat]
  rw [if_pos h]

theorem lead?_two {n : Nat} (hlo : 0xc2 ≤ n) (hhi : n < 0xe0) :
    lead? (UInt8.ofNat n) = some (n - 0xc0, 1, 0x80, 0xbf) := by
  have hn : (UInt8.ofNat n).toNat = n := by simp; omega
  simp only [lead?, UInt8.lt_iff_toNat_lt, hn, UInt8.reduceToNat]
  rw [if_neg (by omega), if_neg (by omega), if_pos hhi]

theorem lead?_three {n : Nat} (hlo : 0xe0 ≤ n) (hhi : n < 0xf0) :
    lead? (UInt8.ofNat n) =
      some (n - 0xe0, 2, if n = 0xe0 then 0xa0 else 0x80, if n = 0xed then 0x9f else 0xbf) := by
  have hn : (UInt8.ofNat n).toNat = n := by simp; omega
  simp only [lead?, UInt8.lt_iff_toNat_lt, ← UInt8.toNat_inj, hn, UInt8.reduceToNat]
  rw [if_neg (by omega), if_neg (by omega), if_neg (by omega), if_pos hhi]

theorem lead?_four {n : Nat} (hlo : 0xf0 ≤ n) (hhi : n < 0xf5) :
    lead? (UInt8.ofNat n) =
      some (n - 0xf0, 3, if n = 0xf0 then 0x90 else 0x80, if n = 0xf4 then 0x8f else 0xbf) := by
  have hn : (UInt8.ofNat n).toNat = n := by simp; omega
  simp only [lead?, UInt8.lt_iff_toNat_lt, ← UInt8.toNat_inj, hn, UInt8.reduceToNat]
  rw [if_neg (by omega), if_neg (by omega), if_neg (by omega), if_neg (by omega), if_pos hhi]

theorem readTail_zero (value seen : Nat) (lo hi : UInt8) (r : Bytes) :
    ∃ h, readTail value seen lo hi 0 r = .ok ⟨value, r, h⟩ := ⟨Nat.le_refl _, rfl⟩

theorem readTail_succ {value seen count d v : Nat} {lo hi : UInt8} {r rest : Bytes} (hd : d < 64)
    (hlo : lo.toNat ≤ d + 0x80) (hhi : d + 0x80 ≤ hi.toNat)
    (hr : ∃ h, readTail (64 * value + d) (seen + 1) 0x80 0xbf count r = .ok ⟨v, rest, h⟩) :
    ∃ h, readTail value seen lo hi (count + 1) (UInt8.ofNat (d + 0x80) :: r) =
      .ok ⟨v, rest, h⟩ := by
  obtain ⟨h, hr⟩ := hr
  have hn : (UInt8.ofNat (d + 0x80)).toNat = d + 0x80 := by simp; omega
  have hin : (lo ≤ UInt8.ofNat (d + 0x80) && UInt8.ofNat (d + 0x80) ≤ hi) = true := by
    simp only [Bool.and_eq_true, decide_eq_true_eq, UInt8.le_iff_toNat_le, hn]
    omega
  refine ⟨Nat.le_succ_of_le h, ?_⟩
  rw [readTail, if_pos hin, hn, Nat.add_sub_cancel, hr]
  rfl

/-- A sequence is read when its first byte and the bytes that follow it are. -/
theorem next_of_readTail {b : UInt8} {r rest : Bytes} {value count v : Nat} {lo hi : UInt8}
    (hlead : lead? b = some (value, count, lo, hi))
    (htail : ∃ h, readTail value 1 lo hi count r = .ok ⟨v, rest, h⟩) :
    ∃ h, next b r = .ok ⟨v, rest, h⟩ := by
  obtain ⟨h, htail⟩ := htail
  exact ⟨h, by rw [next, hlead]; exact htail⟩

/-- The bytes of a character are read as that character, whatever follows them. -/
theorem next_encodeChar (c : Char) (r : Bytes) :
    ∃ b s, String.utf8EncodeChar c = b :: s ∧ ∃ h, next b (s ++ r) = .ok ⟨c.toNat, r, h⟩ := by
  have hvalid : c.toNat < 0xd800 ∨ 0xdfff < c.toNat ∧ c.toNat < 0x110000 := c.valid
  have hn : c.val.toNat = c.toNat := rfl
  rw [String.utf8EncodeChar, hn]
  generalize c.toNat = n at *
  split
  · exact ⟨_, _, rfl, next_of_readTail (lead?_ascii (by omega)) (readTail_zero ..)⟩
  split
  · have hvalue : 64 * (n / 64 % 32 + 192 - 0xc0) + n % 64 = n := by omega
    refine ⟨_, _, rfl, next_of_readTail (lead?_two (by omega) (by omega)) ?_⟩
    refine readTail_succ (by omega) (by simp) (by simp; omega) ?_
    rw [hvalue]
    exact readTail_zero ..
  split
  · have hvalue : 64 * (64 * (n / 4096 % 16 + 224 - 0xe0) + n / 64 % 64) + n % 64 = n := by omega
    refine ⟨_, _, rfl, next_of_readTail (lead?_three (by omega) (by omega)) ?_⟩
    refine readTail_succ (by omega) ?_ ?_ (readTail_succ (by omega) (by simp) (by simp; omega) ?_)
    · split <;> simp; omega
    · split <;> simp <;> omega
    · rw [hvalue]
      exact readTail_zero ..
  · have hvalue : 64 * (64 * (64 * (n / 262144 % 8 + 240 - 0xf0) + n / 4096 % 64) + n / 64 % 64) +
        n % 64 = n := by omega
    refine ⟨_, _, rfl, next_of_readTail (lead?_four (by omega) (by omega)) ?_⟩
    refine readTail_succ (by omega) ?_ ?_ (readTail_succ (by omega) (by simp) (by simp; omega)
      (readTail_succ (by omega) (by simp) (by simp; omega) ?_))
    · split <;> simp; omega
    · split <;> simp <;> omega
    · rw [hvalue]
      exact readTail_zero ..

theorem decodeFrom_encodeChar {r : Bytes} {t : Text}
    (hrest : ∀ position, decodeFrom position r = .ok t) (c : Char) (position : Nat) :
    decodeFrom position (String.utf8EncodeChar c ++ r) = .ok (c :: t) := by
  obtain ⟨b, s, hbytes, _, hnext⟩ := next_encodeChar c r
  rw [hbytes, List.cons_append, decodeFrom]
  simp only [hnext, hrest, Char.ofNat_toNat]
  rfl

theorem decodeFrom_encode (t : Text) (position : Nat) :
    decodeFrom position (encode t) = .ok t := by
  induction t generalizing position with
  | nil => rw [encode, List.flatMap_nil, decodeFrom]
  | cons c t ih => exact decodeFrom_encodeChar ih c position

theorem decode_encode (t : Text) : decode (encode t) = .ok t := decodeFrom_encode t 0

/-- Each character of a text is read from its own bytes. -/
theorem pieces_encode (t : Text) :
    pieces (encode t) = t.map fun c => (c, String.utf8EncodeChar c) := by
  induction t with
  | nil => rw [encode, List.flatMap_nil, pieces, List.map_nil]
  | cons c t ih =>
    obtain ⟨b, s, hbytes, _, hnext⟩ := next_encodeChar c (encode t)
    have htake : (s ++ encode t).take ((s ++ encode t).length - (encode t).length) = s := by
      rw [List.length_append, Nat.add_sub_cancel, List.take_left]
    have hcons : encode (c :: t) = b :: (s ++ encode t) := by
      rw [encode, List.flatMap_cons, hbytes]
      rfl
    rw [hcons, pieces]
    simp only [hnext]
    rw [ih, htake, Char.ofNat_toNat, List.map_cons, hbytes]

theorem encode_append (a b : Text) : encode (a ++ b) = encode a ++ encode b := List.flatMap_append

/-! ### Encoding undoes decoding -/

/-- A continuation byte that is read contributes the six bits that it is written for. -/
theorem readTail_succ_eq_ok {value seen count v : Nat} {lo hi : UInt8} {bs rest : Bytes}
    {h : rest.length ≤ bs.length} (hlo : 0x80 ≤ lo.toNat) (hhi : hi.toNat ≤ 0xbf)
    (hread : readTail value seen lo hi (count + 1) bs = .ok ⟨v, rest, h⟩) :
    ∃ d r, ∃ h' : rest.length ≤ r.length, bs = UInt8.ofNat (d + 0x80) :: r ∧ d < 64 ∧
      lo.toNat ≤ d + 0x80 ∧ d + 0x80 ≤ hi.toNat ∧
      readTail (64 * value + d) (seen + 1) 0x80 0xbf count r = .ok ⟨v, rest, h'⟩ := by
  cases bs with
  | nil => cases hread
  | cons b r =>
    rw [readTail] at hread
    split at hread
    · rename_i hrange
      simp only [Bool.and_eq_true, decide_eq_true_eq, UInt8.le_iff_toNat_le] at hrange
      cases hnext : readTail (64 * value + (b.toNat - 0x80)) (seen + 1) 0x80 0xbf count r with
      | error e =>
        rw [hnext] at hread
        cases hread
      | ok f =>
        obtain ⟨v', rest', h'⟩ := f
        rw [hnext] at hread
        cases hread
        have hb : b.toNat - 0x80 + 0x80 = b.toNat := by omega
        refine ⟨b.toNat - 0x80, r, h', ?_, by omega, by omega, by omega, hnext⟩
        rw [hb, UInt8.ofNat_toNat]
    · cases hread

theorem readTail_zero_eq_ok {value seen v : Nat} {lo hi : UInt8} {bs rest : Bytes}
    {h : rest.length ≤ bs.length} (hread : readTail value seen lo hi 0 bs = .ok ⟨v, rest, h⟩) :
    v = value ∧ bs = rest := by
  rw [readTail] at hread
  cases hread
  exact ⟨rfl, rfl⟩

theorem val_ofNat {v : Nat} (h : v.isValidChar) : (Char.ofNat v).val.toNat = v := by
  rw [Char.ofNat, dif_pos h]
  rfl

theorem encodeChar_ofNat {v : Nat} (h : v.isValidChar) :
    String.utf8EncodeChar (Char.ofNat v) =
      if v ≤ 0x7f then [UInt8.ofNat v]
      else if v ≤ 0x7ff then [UInt8.ofNat (v / 64 % 32 + 192), UInt8.ofNat (v % 64 + 128)]
      else if v ≤ 0xffff then
        [UInt8.ofNat (v / 4096 % 16 + 224), UInt8.ofNat (v / 64 % 64 + 128),
          UInt8.ofNat (v % 64 + 128)]
      else
        [UInt8.ofNat (v / 262144 % 8 + 240), UInt8.ofNat (v / 4096 % 64 + 128),
          UInt8.ofNat (v / 64 % 64 + 128), UInt8.ofNat (v % 64 + 128)] := by
  rw [String.utf8EncodeChar, val_ofNat h]

theorem encodeChar_ascii {n : Nat} (h : n < 0x80) :
    String.utf8EncodeChar (Char.ofNat n) = [UInt8.ofNat n] := by
  rw [encodeChar_ofNat (.inl (by omega)), if_pos (by omega)]

theorem encodeChar_two {n d : Nat} (hlo : 0xc2 ≤ n) (hhi : n < 0xe0) (hd : d < 64) :
    String.utf8EncodeChar (Char.ofNat (64 * (n - 0xc0) + d)) =
      [UInt8.ofNat n, UInt8.ofNat (d + 0x80)] := by
  rw [encodeChar_ofNat (.inl (by omega)), if_neg (by omega), if_pos (by omega)]
  simp only [List.cons.injEq, and_true]
  exact ⟨congrArg _ (by omega), congrArg _ (by omega)⟩

theorem encodeChar_three {n d e : Nat} (hlo : 0xe0 ≤ n) (hhi : n < 0xf0) (hd : d < 64)
    (he : e < 64) (hfirst : n = 0xe0 → 0x20 ≤ d) (hlast : n = 0xed → d < 0x20) :
    String.utf8EncodeChar (Char.ofNat (64 * (64 * (n - 0xe0) + d) + e)) =
      [UInt8.ofNat n, UInt8.ofNat (d + 0x80), UInt8.ofNat (e + 0x80)] := by
  rw [encodeChar_ofNat (by unfold Nat.isValidChar; omega), if_neg (by omega), if_neg (by omega),
    if_pos (by omega)]
  simp only [List.cons.injEq, and_true]
  exact ⟨congrArg _ (by omega), congrArg _ (by omega), congrArg _ (by omega)⟩

theorem encodeChar_four {n d e f : Nat} (hlo : 0xf0 ≤ n) (hhi : n < 0xf5) (hd : d < 64)
    (he : e < 64) (hf : f < 64) (hfirst : n = 0xf0 → 0x10 ≤ d) (hlast : n = 0xf4 → d < 0x10) :
    String.utf8EncodeChar (Char.ofNat (64 * (64 * (64 * (n - 0xf0) + d) + e) + f)) =
      [UInt8.ofNat n, UInt8.ofNat (d + 0x80), UInt8.ofNat (e + 0x80), UInt8.ofNat (f + 0x80)] := by
  rw [encodeChar_ofNat (by unfold Nat.isValidChar; omega), if_neg (by omega), if_neg (by omega),
    if_neg (by omega)]
  simp only [List.cons.injEq, and_true]
  exact ⟨congrArg _ (by omega), congrArg _ (by omega), congrArg _ (by omega), congrArg _ (by omega)⟩

/-- The ranges of the bytes that begin a sequence, by the length of the sequence. -/
theorem lead?_range {b : UInt8} {s : Nat × Nat × UInt8 × UInt8} (h : lead? b = some s) :
    b.toNat < 0x80 ∨ (0xc2 ≤ b.toNat ∧ b.toNat < 0xe0) ∨ (0xe0 ≤ b.toNat ∧ b.toNat < 0xf0) ∨
      (0xf0 ≤ b.toNat ∧ b.toNat < 0xf5) := by
  unfold lead? at h
  simp only [UInt8.lt_iff_toNat_lt, UInt8.reduceToNat] at h
  grind

theorem encodeChar_of_readTail {b : UInt8} {value count v : Nat} {lo hi : UInt8} {r rest : Bytes}
    {h : rest.length ≤ r.length} (hlead : lead? b = some (value, count, lo, hi))
    (hread : readTail value 1 lo hi count r = .ok ⟨v, rest, h⟩) :
    b :: r = String.utf8EncodeChar (Char.ofNat v) ++ rest := by
  have hrange := lead?_range hlead
  rw [← @UInt8.ofNat_toNat b] at hlead ⊢
  generalize b.toNat = n at *
  rcases hrange with hn | ⟨hn, hn'⟩ | ⟨hn, hn'⟩ | ⟨hn, hn'⟩
  · rw [lead?_ascii hn] at hlead
    simp only [Option.some.injEq, Prod.mk.injEq] at hlead
    obtain ⟨rfl, rfl, rfl, rfl⟩ := hlead
    obtain ⟨rfl, rfl⟩ := readTail_zero_eq_ok hread
    rw [encodeChar_ascii hn]
    rfl
  · rw [lead?_two hn hn'] at hlead
    simp only [Option.some.injEq, Prod.mk.injEq] at hlead
    obtain ⟨rfl, rfl, rfl, rfl⟩ := hlead
    obtain ⟨d, r, _, rfl, hd, _, _, hread⟩ := readTail_succ_eq_ok (by decide) (by decide) hread
    obtain ⟨rfl, rfl⟩ := readTail_zero_eq_ok hread
    rw [encodeChar_two hn hn' hd]
    rfl
  · rw [lead?_three hn hn'] at hlead
    simp only [Option.some.injEq, Prod.mk.injEq] at hlead
    obtain ⟨rfl, rfl, rfl, rfl⟩ := hlead
    obtain ⟨d, r, _, rfl, hd, hlo, hhi, hread⟩ :=
      readTail_succ_eq_ok (by split <;> decide) (by split <;> decide) hread
    obtain ⟨e, r, _, rfl, he, _, _, hread⟩ := readTail_succ_eq_ok (by decide) (by decide) hread
    obtain ⟨rfl, rfl⟩ := readTail_zero_eq_ok hread
    rw [encodeChar_three hn hn' hd he (fun h => by simpa [h] using hlo)
      (fun h => by simp [h] at hhi; omega)]
    rfl
  · rw [lead?_four hn hn'] at hlead
    simp only [Option.some.injEq, Prod.mk.injEq] at hlead
    obtain ⟨rfl, rfl, rfl, rfl⟩ := hlead
    obtain ⟨d, r, _, rfl, hd, hlo, hhi, hread⟩ :=
      readTail_succ_eq_ok (by split <;> decide) (by split <;> decide) hread
    obtain ⟨e, r, _, rfl, he, _, _, hread⟩ := readTail_succ_eq_ok (by decide) (by decide) hread
    obtain ⟨f, r, _, rfl, hf, _, _, hread⟩ := readTail_succ_eq_ok (by decide) (by decide) hread
    obtain ⟨rfl, rfl⟩ := readTail_zero_eq_ok hread
    rw [encodeChar_four hn hn' hd he hf (fun h => by simpa [h] using hlo)
      (fun h => by simp [h] at hhi; omega)]
    rfl

/-- A sequence that is read is the one that its character is written as. -/
theorem encodeChar_of_next {b : UInt8} {v : Nat} {r rest : Bytes} {h : rest.length ≤ r.length}
    (hread : next b r = .ok ⟨v, rest, h⟩) :
    b :: r = String.utf8EncodeChar (Char.ofNat v) ++ rest := by
  unfold next at hread
  split at hread
  · cases hread
  · rename_i hlead
    exact encodeChar_of_readTail hlead hread

theorem encode_of_decodeFrom {position : Nat} {bs : Bytes} {t : Text}
    (h : decodeFrom position bs = .ok t) : encode t = bs := by
  fun_induction decodeFrom position bs generalizing t with
  | case1 =>
    cases h
    rfl
  | case2 => cases h
  | case3 position b r v rest hle hnext ih =>
    obtain ⟨more, hmore, h⟩ := exists_of_bind h
    cases h
    rw [encodeChar_of_next hnext, ← ih hmore]
    rfl

theorem encode_of_decode {bs : Bytes} {t : Text} (h : decode bs = .ok t) : encode t = bs :=
  encode_of_decodeFrom h

end TypedQueries.Text.Utf8

namespace TypedQueries.Companion

open Text Source

/-- The byte of an ASCII character is in no other character. -/
theorem ascii_notMem_encodeChar {c d : Char} (hd : d.toNat < 0x80) (h : c ≠ d) :
    UInt8.ofNat d.toNat ∉ String.utf8EncodeChar c := by
  have hc : c.val.toNat ≠ d.toNat := fun he => h (Char.ext (UInt32.toNat_inj.1 he))
  generalize hn : c.val.toNat = n at hc
  generalize d.toNat = m at *
  rw [String.utf8EncodeChar, hn]
  intro hmem
  split at hmem
  · simp [← UInt8.toNat_inj] at hmem
    omega
  split at hmem
  · simp [← UInt8.toNat_inj] at hmem
    omega
  split at hmem
  · simp [← UInt8.toNat_inj] at hmem
    omega
  · simp [← UInt8.toNat_inj] at hmem
    omega

theorem lineFeed_notMem_encodeChar {c : Char} (h : c ≠ '\n') :
    lineFeed ∉ String.utf8EncodeChar c :=
  ascii_notMem_encodeChar (d := '\n') (by decide) h

/-- The lines that a text is made of have as many bytes as the text. -/
theorem bytesOfLines_unlines {lines : List Text} (h : ∀ l ∈ lines, '\n' ∉ l) (r : Bytes) :
    bytesOfLines lines.length (Utf8.encode (unlines lines) ++ r) =
      (Utf8.encode (unlines lines)).length := by
  induction lines with
  | nil => simp [bytesOfLines, unlines, Utf8.encode]
  | cons l ls ih =>
    have hl : lineFeed ∉ Utf8.encode l := by
      intro hmem
      obtain ⟨c, hc, hb⟩ := List.mem_flatMap.1 hmem
      refine lineFeed_notMem_encodeChar ?_ hb
      rintro rfl
      exact h l List.mem_cons_self hc
    have hend : Utf8.encode ['\n'] = [lineFeed] := by decide
    have hlines : Utf8.encode (unlines (l :: ls)) =
        Utf8.encode l ++ lineFeed :: Utf8.encode (unlines ls) := by
      rw [unlines, List.flatMap_cons, Utf8.encode_append, Utf8.encode_append, hend,
        List.append_assoc]
      rfl
    have hnone : (Utf8.encode l).count lineFeed = 0 := List.count_eq_zero.2 hl
    have hfew : ¬ls.length + 1 ≤ (Utf8.encode l).count lineFeed := by omega
    rw [hlines, List.length_cons, List.append_assoc, bytesOfLines_append, if_neg hfew, hnone,
      Nat.sub_zero, List.cons_append, bytesOfLines, if_pos rfl,
      ih fun l' hl' => h l' (List.mem_cons_of_mem _ hl'), List.length_append, List.length_cons]

/-! ### The encoding of a companion -/

/-- The comments that a companion begins with. -/
def heading : List Text :=
  ["# Code generated by querygen. DO NOT EDIT.", "# You may only edit import statements."]

theorem unifyLineEnds_append {a : Text} (h : '\r' ∉ a) (b : Text) :
    unifyLineEnds (a ++ b) = a ++ unifyLineEnds b := by
  induction a with
  | nil => rfl
  | cons c a ih =>
    obtain ⟨hc, ha⟩ := List.ne_and_not_mem_of_not_mem_cons h
    rw [List.cons_append, unifyLineEnds, ih ha, List.cons_append]
    · rintro r rfl
      exact absurd rfl hc
    · rintro rfl
      exact absurd rfl hc

theorem unifyLineEnds_of_notMem {t : Text} (h : '\r' ∉ t) : unifyLineEnds t = t := by
  have hall := unifyLineEnds_append h []
  rwa [List.append_nil, unifyLineEnds, List.append_nil] at hall

theorem splitOn_unlines {lines : List Text} (h : ∀ l ∈ lines, '\n' ∉ l) (t : Text) :
    splitOn '\n' (unlines lines ++ t) = lines ++ splitOn '\n' t := by
  induction lines with
  | nil => rfl
  | cons l ls ih =>
    have hl : '\n' ∉ l := h l List.mem_cons_self
    have hls : ∀ l' ∈ ls, '\n' ∉ l' := fun l' hl' => h l' (List.mem_cons_of_mem _ hl')
    have hcons : unlines (l :: ls) ++ t = l ++ '\n' :: (unlines ls ++ t) := by simp [unlines]
    rw [hcons, splitOn_append_cons hl, ih hls, List.cons_append]

theorem ofBody_heading (r : Bytes) :
    Encoding.ofBody (Utf8.encode (unlines heading) ++ r) = .lenient := by
  have hbytes : Encoding.widen (Utf8.encode (unlines heading)) = unlines heading := by decide
  have htext : Encoding.widen (Utf8.encode (unlines heading) ++ r) =
      unlines heading ++ Encoding.widen r := by
    rw [Encoding.widen, List.map_append]
    exact congrArg (· ++ _) hbytes
  rw [Encoding.ofBody, htext, unifyLineEnds_append (by decide)]
  generalize unifyLineEnds (Encoding.widen r) = t
  have hnone : Encoding.declared? (unlines heading ++ t) = none := by
    rw [Encoding.declared?, splitOn_unlines (by decide)]
    dsimp only [heading, List.cons_append]
    rw [show Encoding.nameOnLine? _ = none from by decide]
    decide
  rw [hnone]

/-- A text that begins with the comments, and in which line feeds end the lines, is read back from
its file. -/
theorem decodeFile?_heading [Release] {t : Text} (h : '\r' ∉ t) :
    Encoding.decodeFile? (Utf8.encode (unlines heading ++ t)) = some (unlines heading ++ t) := by
  have hmark : Encoding.byteOrderMark.isPrefixOf (Utf8.encode (unlines heading) ++ Utf8.encode t) =
      false := rfl
  have hfeeds : '\r' ∉ unlines heading ++ t := by
    rw [List.mem_append, not_or]
    exact ⟨by decide, h⟩
  have hunified := unifyLineEnds_of_notMem hfeeds
  have hpieces := Utf8.pieces_encode (unlines heading ++ t)
  rw [Utf8.encode_append] at hpieces ⊢
  rw [Encoding.decodeFile?, hmark, if_neg Bool.false_ne_true, ofBody_heading, Encoding.decode?,
    hpieces, List.map_map]
  simpa only [Function.comp_def, List.map_id', Option.some.injEq] using hunified

end TypedQueries.Companion
