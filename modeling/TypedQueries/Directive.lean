import TypedQueries.Text.Basic
import TypedQueries.Text.Blank

/-!
# Directives

A directive stands in a query text for one parameter: `{{ name : type }}`, or
`{{ name : type : %format }}` when the author chooses how the value is formatted. The type may be
the wildcard `_`, which repeats the type of an earlier directive of that name, may carry one
qualifier (`models.UserId`) and may be marked as nullable by a leading `*`.

`read?` reads one directive at the head of a text. Every step of it is forced: blanks and names
are taken as far as they go, so there is one way to read a directive or none.
-/

namespace TypedQueries

/-- One occurrence of a parameter in a query text. -/
structure Directive where
  /-- The parameter, an ASCII identifier. -/
  name : Text
  /-- The type as written, with its mark and its qualifier. -/
  typeName : Text
  /-- The format as written, with its percent sign. -/
  format : Option Text
deriving DecidableEq

namespace Directive

def wildcard : Text := ['_']

/-- Whether the directive repeats the type of an earlier one. -/
def isWildcard (d : Directive) : Bool := d.typeName = wildcard

def isNameStart (c : Char) : Bool := Text.isAsciiLetter c || c = '_'

def isNamePart (c : Char) : Bool := isNameStart c || Text.isAsciiDigit c

/-- Whether a character may stand in a format, after its percent sign. -/
def isFormatPart (c : Char) : Bool := !Text.isBlank c && c ≠ '}'

def skipBlanks (t : Text) : Text := t.dropWhile Text.isBlank

/-- The rest of a text that begins with `mark`. -/
def after? : (mark : Text) → Text → Option Text
  | [], t => some t
  | _ :: _, [] => none
  | m :: ms, c :: r => if m = c then after? ms r else none

/-- The longest name at the head of a text, and the rest. -/
def readName? : Text → Option (Text × Text)
  | [] => none
  | c :: r =>
    if isNameStart c then some (c :: r.takeWhile isNamePart, r.dropWhile isNamePart) else none

/-- A name with at most one qualifier, and the rest. -/
def readQualified? (t : Text) : Option (Text × Text) :=
  match readName? t with
  | none => none
  | some (first, '.' :: r) =>
    match readName? r with
    | some (second, rest) => some (first ++ '.' :: second, rest)
    | none => some (first, '.' :: r)
  | some (first, r) => some (first, r)

/-- A type: a qualified name, perhaps with a leading mark; and the rest. -/
def readType? : Text → Option (Text × Text)
  | '*' :: r => (readQualified? r).map fun (n, rest) => ('*' :: n, rest)
  | t => readQualified? t

/-- A format: a percent sign and at least one more character; and the rest. -/
def readFormat? : Text → Option (Text × Text)
  | '%' :: c :: r =>
    if isFormatPart c then
      some ('%' :: c :: r.takeWhile isFormatPart, r.dropWhile isFormatPart)
    else none
  | _ => none

/-- The end of a directive whose name and type have been read, and the rest. -/
def readEnd? (name typeName t : Text) : Option (Directive × Text) :=
  match after? [':'] (skipBlanks t) with
  | some r => do
    let (format, r) ← readFormat? (skipBlanks r)
    let rest ← after? ['}', '}'] (skipBlanks r)
    some (⟨name, typeName, some format⟩, rest)
  | none => do
    let rest ← after? ['}', '}'] (skipBlanks t)
    some (⟨name, typeName, none⟩, rest)

/-- The directive at the head of a text, and the rest. -/
def read? (t : Text) : Option (Directive × Text) := do
  let r ← after? ['{', '{'] t
  let (name, r) ← readName? (skipBlanks r)
  let r ← after? [':'] (skipBlanks r)
  let (typeName, r) ← readType? (skipBlanks r)
  readEnd? name typeName r

/-! ### What is read is a proper part of the text -/

theorem length_skipBlanks_le (t : Text) : (skipBlanks t).length ≤ t.length :=
  (List.dropWhile_suffix Text.isBlank).length_le

theorem length_of_after? {mark t rest : Text} (h : after? mark t = some rest) :
    rest.length + mark.length = t.length := by
  induction mark generalizing t with
  | nil =>
    cases h
    rfl
  | cons m ms ih =>
    cases t with
    | nil => cases h
    | cons c r =>
      simp only [after?] at h
      split at h
      · have := ih h
        simp only [List.length_cons]
        omega
      · cases h

theorem length_of_readName? {t n rest : Text} (h : readName? t = some (n, rest)) :
    rest.length < t.length := by
  cases t with
  | nil => cases h
  | cons c r =>
    simp only [readName?] at h
    split at h
    · cases h
      have := (List.dropWhile_suffix isNamePart (l := r)).length_le
      simp only [List.length_cons]
      omega
    · cases h

theorem length_of_readQualified? {t n rest : Text} (h : readQualified? t = some (n, rest)) :
    rest.length < t.length := by
  unfold readQualified? at h
  split at h
  · cases h
  · rename_i first r hf
    have h1 := length_of_readName? hf
    simp only [List.length_cons] at h1
    split at h
    · rename_i second rest' hs
      cases h
      have := length_of_readName? hs
      omega
    · cases h
      simp only [List.length_cons]
      omega
  · rename_i hf
    cases h
    exact length_of_readName? hf

theorem length_of_readType? {t n rest : Text} (h : readType? t = some (n, rest)) :
    rest.length < t.length := by
  unfold readType? at h
  split at h
  · obtain ⟨⟨n', rest'⟩, hq, he⟩ := Option.map_eq_some_iff.1 h
    cases he
    have := length_of_readQualified? hq
    simp only [List.length_cons]
    omega
  · exact length_of_readQualified? h

theorem length_of_readFormat? {t f rest : Text} (h : readFormat? t = some (f, rest)) :
    rest.length < t.length := by
  unfold readFormat? at h
  split at h
  · rename_i c r
    split at h
    · cases h
      have := (List.dropWhile_suffix isFormatPart (l := r)).length_le
      simp only [List.length_cons]
      omega
    · cases h
  · cases h

theorem length_of_readEnd? {name typeName t rest : Text} {d : Directive}
    (h : readEnd? name typeName t = some (d, rest)) : rest.length < t.length := by
  unfold readEnd? at h
  have h0 := length_skipBlanks_le t
  split at h
  · rename_i r hr
    have h1 := length_of_after? hr
    simp only [Option.bind_eq_bind, Option.bind_eq_some_iff, Option.some.injEq, Prod.mk.injEq,
      Prod.exists] at h
    obtain ⟨f, r', hf, rest', he, _, rfl⟩ := h
    have h2 := length_of_readFormat? hf
    have h3 := length_of_after? he
    have h4 := length_skipBlanks_le r
    have h5 := length_skipBlanks_le r'
    simp only [List.length_cons, List.length_nil] at h1 h3
    omega
  · simp only [Option.bind_eq_bind, Option.bind_eq_some_iff, Option.some.injEq,
      Prod.mk.injEq] at h
    obtain ⟨rest', he, _, rfl⟩ := h
    have h3 := length_of_after? he
    simp only [List.length_cons, List.length_nil] at h3
    omega

theorem length_of_read? {t rest : Text} {d : Directive} (h : read? t = some (d, rest)) :
    rest.length < t.length := by
  unfold read? at h
  simp only [Option.bind_eq_bind, Option.bind_eq_some_iff, Prod.exists] at h
  obtain ⟨r1, h1, name, r2, h2, r3, h3, typeName, r4, h4, h5⟩ := h
  have e1 := length_of_after? h1
  have e2 := length_of_readName? h2
  have e3 := length_of_after? h3
  have e4 := length_of_readType? h4
  have e5 := length_of_readEnd? h5
  have s1 := length_skipBlanks_le r1
  have s2 := length_skipBlanks_le r2
  have s3 := length_skipBlanks_le r3
  simp only [List.length_cons, List.length_nil] at e1 e3
  omega

end Directive

end TypedQueries
