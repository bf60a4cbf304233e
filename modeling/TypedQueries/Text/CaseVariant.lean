import TypedQueries.Text.LowerCase

/-!
# Variants in case

The characters that differ from one another in case alone. Some small letters share their capital,
such as the two forms of sigma, and these are variants of one another too.
-/

namespace TypedQueries.Text

/-- Groups of small letters that share a capital. -/
def smallGroups : List (List Nat) :=
  [[0x69, 0x131], [0x73, 0x17f], [0xb5, 0x3bc], [0x345, 0x3b9, 0x1fbe], [0x390, 0x1fd3],
   [0x3b0, 0x1fe3], [0x3b2, 0x3d0], [0x3b5, 0x3f5], [0x3b8, 0x3d1], [0x3ba, 0x3f0],
   [0x3c0, 0x3d6], [0x3c1, 0x3f1], [0x3c2, 0x3c3], [0x3c6, 0x3d5], [0x432, 0x1c80],
   [0x434, 0x1c81], [0x43e, 0x1c82], [0x441, 0x1c83], [0x442, 0x1c84, 0x1c85], [0x44a, 0x1c86],
   [0x463, 0x1c87], [0x1c88, 0xa64b], [0x1e61, 0x1e9b], [0xfb05, 0xfb06]]

/-- The small letter of a character, or the character itself. -/
def smallLetter (c : Char) : Char := (lowerChar c).headD c

/-- The small letters that share their capital with a small letter, which is one of them. -/
def smallForms (c : Char) : List Char :=
  match smallGroups.find? (·.contains c.toNat) with
  | some group => group.map Char.ofNat
  | none => [c]

def capitals (c : Char) : List Char :=
  let n : Int := c.toNat
  let inRun : Nat × Nat × Nat × Int → Option Char := fun (a, b, step, distance) =>
    let m := (n - distance).toNat
    if a ≤ m && m ≤ b && (m - a) % step = 0 then some (Char.ofNat m) else none
  let latin := if 'a' ≤ c && c ≤ 'z' then [Char.ofNat (c.toNat - 32)] else []
  let dotted := if c = 'i' then [Char.ofNat 0x130] else []
  latin ++ dotted ++ capitalRuns.filterMap inRun

def caseVariants (c : Char) : List Char :=
  let small := smallForms (smallLetter c)
  small ++ small.flatMap capitals

end TypedQueries.Text
