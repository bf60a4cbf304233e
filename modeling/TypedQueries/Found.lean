/-!
# Results of readers

A reader looks at the head of a list of characters or tokens and returns what it has found there
together with the rest. That the rest is shorter, or at least not longer, belongs to the result,
so a chain of readers can be seen to end.
-/

namespace TypedQueries

/-- What a reader has found at the head of `items`, at least one item long. -/
structure Found (α : Type) {ι : Type} (items : List ι) where
  value : α
  rest : List ι
  shorter : rest.length < items.length

/-- What a reader has found at the head of `items`, where nothing at all may have been read. -/
structure Reached (α : Type) {ι : Type} (items : List ι) where
  value : α
  rest : List ι
  atMost : rest.length ≤ items.length

variable {α ι : Type}

/-! ### Chains of readers -/

section Lengths

variable {a b c : List ι}

theorem shorter_tail (x : ι) (a : List ι) : a.length < (x :: a).length := Nat.lt_succ_self _

theorem atMost_tail (x : ι) (a : List ι) : a.length ≤ (x :: a).length := Nat.le_succ _

theorem atMost_of_shorter (h : b.length < a.length) : b.length ≤ a.length := Nat.le_of_lt h

theorem shorter_trans (h : b.length < a.length) (h' : c.length < b.length) :
    c.length < a.length := Nat.lt_trans h' h

theorem shorter_of_shorter_of_atMost (h : b.length < a.length) (h' : c.length ≤ b.length) :
    c.length < a.length := Nat.lt_of_le_of_lt h' h

theorem shorter_of_atMost_of_shorter (h : b.length ≤ a.length) (h' : c.length < b.length) :
    c.length < a.length := Nat.lt_of_lt_of_le h' h

theorem atMost_trans (h : b.length ≤ a.length) (h' : c.length ≤ b.length) :
    c.length ≤ a.length := Nat.le_trans h' h

theorem shorter_cons (x : ι) (h : b.length < a.length) : b.length < (x :: a).length :=
  Nat.lt_succ_of_lt h

theorem shorter_cons_of_atMost (x : ι) (h : b.length ≤ a.length) : b.length < (x :: a).length :=
  Nat.lt_succ_of_le h

theorem atMost_cons (x : ι) (h : b.length ≤ a.length) : b.length ≤ (x :: a).length :=
  Nat.le_succ_of_le h

theorem shorter_of_cons_atMost (x : ι) (h : (x :: b).length ≤ a.length) : b.length < a.length :=
  Nat.lt_of_succ_le h

end Lengths

/-! ### Results -/

def Found.reached {items : List ι} (f : Found α items) : Reached α items :=
  ⟨f.value, f.rest, Nat.le_of_lt f.shorter⟩

/-- The result of a reader that leaves `rest`, provided that this is progress. -/
def Found.leaving? (a : α) (items rest : List ι) : Option (Found α items) :=
  if h : rest.length < items.length then some ⟨a, rest, h⟩ else none

/-- The rest after `x`, if that stands at the head. -/
def Found.after? [DecidableEq ι] (x : ι) : (items : List ι) → Option (Found Unit items)
  | [] => none
  | y :: r => if y = x then some ⟨(), r, shorter_tail y r⟩ else none

def Reached.none (a : α) (items : List ι) : Reached α items := ⟨a, items, Nat.le_refl _⟩

/-- The longest beginning whose members satisfy `p`, and the rest. -/
def Reached.while (p : ι → Bool) (items : List ι) : Reached (List ι) items :=
  ⟨items.takeWhile p, items.dropWhile p, (List.dropWhile_suffix p).length_le⟩

def Reached.drop (n : Nat) (items : List ι) : Reached Unit items :=
  ⟨(), items.drop n, (List.drop_suffix n items).length_le⟩

end TypedQueries
