import TypedQueries.Text.CodePoint
import TypedQueries.Found

/-!
# UTF-8

Text as bytes and back. Halves of surrogate pairs cannot be written. Reading stops at the first
malformed sequence and says where it stands, how many of its bytes are at fault and why; or it takes
such bytes one by one and marks them.
-/

namespace TypedQueries.Text.Utf8

def encode (t : Text) : Bytes := t.flatMap String.utf8EncodeChar

/-- The first halves of surrogate pairs in a text. -/
structure EncodeError where
  start : Nat
  /-- How many of them stand in a row. -/
  length : Nat
  first : Fin 2048
deriving DecidableEq

def EncodeError.message (e : EncodeError) : Text :=
  if e.length = 1 then
    "'utf-8' codec can't encode character '" ++ CodePoint.halfEscape e.first ++
      "' in position " ++ ofNat e.start ++ ": surrogates not allowed"
  else
    "'utf-8' codec can't encode characters in position " ++ ofNat e.start ++ "-" ++
      ofNat (e.start + e.length - 1) ++ ": surrogates not allowed"

/-- The bytes of a text that begins at `position` of a longer one. -/
def encodeCodedFrom (position : Nat) : CodedText → Except EncodeError Bytes
  | [] => .ok []
  | .char c :: r => (encodeCodedFrom (position + 1) r).map (String.utf8EncodeChar c ++ ·)
  | .half n :: r => .error ⟨position, (r.takeWhile CodePoint.isHalf).length + 1, n⟩

def encodeCoded (t : CodedText) : Except EncodeError Bytes := encodeCodedFrom 0 t

theorem encodeCodedFrom_eq_ok_iff {position : Nat} {t : CodedText} {bs : Bytes} :
    encodeCodedFrom position t = .ok bs ↔ ∃ text, t = .ofText text ∧ bs = encode text := by
  induction t generalizing position bs with
  | nil =>
    constructor
    · rintro ⟨⟩
      exact ⟨[], rfl, rfl⟩
    · rintro ⟨text, ht, rfl⟩
      cases text with
      | nil => rfl
      | cons c text => cases ht
  | cons p t ih =>
    cases p with
    | half n =>
      refine iff_of_false (fun h => by cases h) ?_
      rintro ⟨text, ht, -⟩
      cases text <;> cases ht
    | char c =>
      rw [encodeCodedFrom]
      constructor
      · intro h
        cases hrest : encodeCodedFrom (position + 1) t with
        | error e =>
          rw [hrest] at h
          cases h
        | ok rest =>
          rw [hrest] at h
          obtain ⟨text, rfl, rfl⟩ := ih.1 hrest
          cases h
          exact ⟨c :: text, rfl, rfl⟩
      · rintro ⟨text, ht, rfl⟩
        cases text with
        | nil => cases ht
        | cons d text =>
          obtain ⟨hd, hrest⟩ := List.cons.inj ht
          cases hd
          rw [ih.2 ⟨text, hrest, rfl⟩]
          rfl

theorem encodeCoded_eq_ok_iff {t : CodedText} {bs : Bytes} :
    encodeCoded t = .ok bs ↔ ∃ text, t = .ofText text ∧ bs = encode text :=
  encodeCodedFrom_eq_ok_iff

@[simp] theorem encodeCoded_ofText (t : Text) : encodeCoded (.ofText t) = .ok (encode t) :=
  encodeCoded_eq_ok_iff.2 ⟨t, rfl, rfl⟩

inductive Fault where
  | invalidStart
  | invalidContinuation
  | unexpectedEnd
deriving DecidableEq

structure DecodeError where
  fault : Fault
  /-- The position of its first byte. -/
  start : Nat
  /-- How many of its bytes are at fault. -/
  length : Nat
  /-- Its first byte. -/
  first : UInt8
deriving DecidableEq

def Fault.reason : Fault → Text
  | invalidStart => "invalid start byte"
  | invalidContinuation => "invalid continuation byte"
  | unexpectedEnd => "unexpected end of data"

def DecodeError.message (e : DecodeError) : Text :=
  if e.length = 1 then
    "'utf-8' codec can't decode byte 0x" ++ hex 2 e.first.toNat ++ " in position " ++
      ofNat e.start ++ ": " ++ e.fault.reason
  else
    "'utf-8' codec can't decode bytes in position " ++ ofNat e.start ++ "-" ++
      ofNat (e.start + e.length - 1) ++ ": " ++ e.fault.reason

/-- The bits that the first byte of a sequence contributes, the number of bytes that follow it and
the range of the next one; none for a byte that begins no sequence. -/
def lead? (b : UInt8) : Option (Nat × Nat × UInt8 × UInt8) :=
  if b < 0x80 then some (b.toNat, 0, 0x80, 0xbf)
  else if b < 0xc2 then none
  else if b < 0xe0 then some (b.toNat - 0xc0, 1, 0x80, 0xbf)
  else if b < 0xf0 then
    some (b.toNat - 0xe0, 2, if b = 0xe0 then 0xa0 else 0x80, if b = 0xed then 0x9f else 0xbf)
  else if b < 0xf5 then
    some (b.toNat - 0xf0, 3, if b = 0xf0 then 0x90 else 0x80, if b = 0xf4 then 0x8f else 0xbf)
  else none

/-- Reads `count` further bytes of a sequence of which `seen` bytes have been read, the next one
between `lo` and `hi`. A fault comes with the number of bytes before it. -/
def readTail (value seen : Nat) (lo hi : UInt8) :
    (count : Nat) → (bs : Bytes) → Except (Fault × Nat) (Reached Nat bs)
  | 0, bs => .ok (.none value bs)
  | _ + 1, [] => .error (.unexpectedEnd, seen)
  | count + 1, b :: r =>
    if lo ≤ b && b ≤ hi then do
      let ⟨v, rest, h⟩ ← readTail (64 * value + (b.toNat - 0x80)) (seen + 1) 0x80 0xbf count r
      .ok ⟨v, rest, Nat.le_succ_of_le h⟩
    else .error (.invalidContinuation, seen)

/-- Reads the rest of the sequence that `b` begins. -/
def next (b : UInt8) (r : Bytes) : Except (Fault × Nat) (Reached Nat r) :=
  match lead? b with
  | none => .error (.invalidStart, 1)
  | some (value, count, lo, hi) => readTail value 1 lo hi count r

/-- The text of bytes that begin at `position` of a file. -/
def decodeFrom (position : Nat) (bs : Bytes) : Except DecodeError Text :=
  match bs with
  | [] => .ok []
  | b :: r =>
    match next b r with
    | .error (fault, n) => .error ⟨fault, position, n, b⟩
    | .ok ⟨v, rest, _h⟩ => do
      let more ← decodeFrom (position + (r.length - rest.length) + 1) rest
      .ok (Char.ofNat v :: more)
termination_by bs.length
decreasing_by
  simp only [List.length_cons]
  omega

def decode (bs : Bytes) : Except DecodeError Text := decodeFrom 0 bs

/-- Marks a byte that belongs to no character. -/
def unreadable : Char := '\x00'

/-- The characters of a file, each with the bytes that it is read from. -/
def pieces (bs : Bytes) : List (Char × Bytes) :=
  match bs with
  | [] => []
  | b :: r =>
    match next b r with
    | .error _ => (unreadable, [b]) :: pieces r
    | .ok ⟨v, rest, _h⟩ => (Char.ofNat v, b :: r.take (r.length - rest.length)) :: pieces rest
termination_by bs.length
decreasing_by
  · simp
  · simp only [List.length_cons]
    omega

end TypedQueries.Text.Utf8
