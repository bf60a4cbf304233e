import Mathlib.Data.List.Basic
import TypedQueries.Proofs.Decoding
import TypedQueries.Proofs.SourceLines

/-!
# Lines of a decoded file

In the encodings that are known by themselves each character of a text is read from bytes of its
own, and only the ends of lines are written as ends of lines. So a place in the text has its place
in the file, and as many lines end before the one as before the other, whichever line ends the file
has. Of an encoding that comes with the release nothing of this is known.
-/

namespace TypedQueries.Companion

open Text Source

/-! ### The bytes of a character -/

/-- Whether the bytes of a character hold what ends a line exactly where the character is what ends
a line. -/
def KeepsLineEnds (c : Char) (w : Bytes) : Prop :=
  if c = '\n' then w = [lineFeed]
  else if c = '\r' then w = [carriageReturn]
  else w ≠ [] ∧ lineFeed ∉ w ∧ carriageReturn ∉ w

theorem ofNat_byte (b : UInt8) : (Char.ofNat b.toNat).toNat = b.toNat :=
  Utf8.val_ofNat (.inl (by have := b.toNat_lt; omega))

theorem keepsLineEnds_byte (b : UInt8) : KeepsLineEnds (Char.ofNat b.toNat) [b] := by
  have hchar : ∀ d : UInt8, Char.ofNat b.toNat = Char.ofNat d.toNat ↔ b = d := by
    intro d
    rw [← Char.toNat_inj, ofNat_byte, ofNat_byte, UInt8.toNat_inj]
  unfold KeepsLineEnds
  split
  · rename_i h
    rw [(hchar lineFeed).1 h]
  split
  · rename_i h
    rw [(hchar carriageReturn).1 h]
  · rename_i hfeed hreturn
    refine ⟨by simp, ?_, ?_⟩
    · rw [List.mem_singleton]
      exact fun h => hfeed ((hchar lineFeed).2 h.symm)
    · rw [List.mem_singleton]
      exact fun h => hreturn ((hchar carriageReturn).2 h.symm)

theorem keepsLineEnds_utf8EncodeChar (c : Char) : KeepsLineEnds c (String.utf8EncodeChar c) := by
  unfold KeepsLineEnds
  split
  · rename_i h
    subst h
    decide
  split
  · rename_i h
    subst h
    decide
  · rename_i hfeed hreturn
    refine ⟨?_, lineFeed_notMem_encodeChar hfeed,
      ascii_notMem_encodeChar (d := '\r') (by decide) hreturn⟩
    unfold String.utf8EncodeChar
    grind

theorem take_next {b : UInt8} {v : Nat} {r rest : Bytes} {h : rest.length ≤ r.length}
    (hnext : Utf8.next b r = .ok ⟨v, rest, h⟩) :
    b :: r.take (r.length - rest.length) = String.utf8EncodeChar (Char.ofNat v) := by
  have hall := Utf8.encodeChar_of_next hnext
  have hlength := congrArg List.length hall
  rw [List.length_cons, List.length_append] at hlength
  have htake : (b :: r).take (r.length - rest.length + 1) =
      String.utf8EncodeChar (Char.ofNat v) := by
    rw [hall]
    exact List.take_left' (by omega)
  exact htake

theorem flatMap_snd_pieces (bs : Bytes) : (Utf8.pieces bs).flatMap Prod.snd = bs := by
  fun_induction Utf8.pieces bs with
  | case1 => rfl
  | case2 b r _ _ ih => rw [List.flatMap_cons, ih, List.singleton_append]
  | case3 b r v rest h hnext ih =>
    rw [List.flatMap_cons, ih, take_next hnext]
    exact (Utf8.encodeChar_of_next hnext).symm

/-- A byte that belongs to no character is none that ends a line. -/
theorem not_ascii_of_next_error {b : UInt8} {r : Bytes} {e : Utf8.Fault × Nat}
    (h : Utf8.next b r = .error e) : ¬b < 0x80 := by
  intro hb
  rw [Utf8.next, Utf8.lead?, if_pos hb] at h
  cases h

theorem keepsLineEnds_pieces (bs : Bytes) : ∀ p ∈ Utf8.pieces bs, KeepsLineEnds p.1 p.2 := by
  fun_induction Utf8.pieces bs with
  | case1 => simp
  | case2 b r _ hnext ih =>
    have hb := not_ascii_of_next_error hnext
    refine List.forall_mem_cons.2 ⟨?_, ih⟩
    change KeepsLineEnds Utf8.unreadable [b]
    rw [KeepsLineEnds, if_neg (by decide), if_neg (by decide), List.mem_singleton,
      List.mem_singleton]
    refine ⟨List.cons_ne_nil b [], ?_, ?_⟩
    · rintro rfl
      exact hb (by decide)
    · rintro rfl
      exact hb (by decide)
  | case3 b r v rest h hnext ih =>
    refine List.forall_mem_cons.2 ⟨?_, ih⟩
    rw [take_next hnext]
    exact keepsLineEnds_utf8EncodeChar (Char.ofNat v)

/-! ### Line ends -/

theorem head?_flatMap_ne {ps : List (Char × Bytes)} (h : ∀ p ∈ ps, KeepsLineEnds p.1 p.2)
    (hps : (ps.map Prod.fst).head? ≠ some '\n') :
    (ps.flatMap Prod.snd).head? ≠ some lineFeed := by
  cases ps with
  | nil => simp
  | cons p ps =>
    obtain ⟨c, w⟩ := p
    have hc := h (c, w) List.mem_cons_self
    rw [List.flatMap_cons]
    have hne : c ≠ '\n' := fun he => hps (he ▸ rfl)
    rw [KeepsLineEnds, if_neg hne] at hc
    split at hc
    · rw [hc, List.singleton_append, List.head?_cons]
      decide
    · obtain ⟨hw, hfeed, _⟩ := hc
      obtain ⟨b, w, rfl⟩ := List.exists_cons_of_ne_nil hw
      rintro ⟨⟩
      exact hfeed List.mem_cons_self

/-- As many lines end among the bytes of a text as there are line feeds in the text with its line
ends unified. -/
theorem lineEnds_flatMap {ps : List (Char × Bytes)} (h : ∀ p ∈ ps, KeepsLineEnds p.1 p.2) :
    lineEnds (ps.flatMap Prod.snd) = (unifyLineEnds (ps.map Prod.fst)).count '\n' := by
  generalize ht : ps.map Prod.fst = t
  fun_induction unifyLineEnds t generalizing ps with
  | case1 r ih =>
    obtain ⟨⟨_, w⟩, qs, rfl, rfl, hqs⟩ := List.map_eq_cons_iff.1 ht
    obtain ⟨⟨_, w'⟩, ps, rfl, rfl, rfl⟩ := List.map_eq_cons_iff.1 hqs
    have hr := ih (fun p hp => h p (List.mem_cons_of_mem _ (List.mem_cons_of_mem _ hp))) rfl
    obtain rfl : w = [carriageReturn] := h ('\r', w) (by simp)
    obtain rfl : w' = [lineFeed] := h ('\n', w') (by simp)
    rw [List.flatMap_cons, List.flatMap_cons, List.count_cons_self, ← hr,
      List.singleton_append, List.singleton_append, lineEnds, lineEnds, Nat.add_comm _ 1]
    exact Nat.zero_add _
  | case2 r hne ih =>
    obtain ⟨⟨_, w⟩, ps, rfl, rfl, rfl⟩ := List.map_eq_cons_iff.1 ht
    have hkeeps := fun p hp => h p (List.mem_cons_of_mem _ hp)
    have hr := ih hkeeps rfl
    obtain rfl : w = [carriageReturn] := h ('\r', w) (by simp)
    have hnext : (ps.flatMap Prod.snd).head? ≠ some lineFeed := by
      refine head?_flatMap_ne hkeeps fun hhead => ?_
      obtain ⟨r, hr⟩ := List.head?_eq_some_iff.1 hhead
      exact hne r hr
    rw [List.flatMap_cons, List.count_cons_self, ← hr, List.singleton_append, lineEnds,
      if_pos (endsLine_iff.2 (.inr ⟨rfl, hnext⟩)), Nat.add_comm]
  | case3 c r hpair hreturn ih =>
    obtain ⟨⟨c, w⟩, ps, rfl, rfl, rfl⟩ := List.map_eq_cons_iff.1 ht
    have hr := ih (fun p hp => h p (List.mem_cons_of_mem _ hp)) rfl
    have hc := h (c, w) List.mem_cons_self
    have hcr : c ≠ '\r' := fun he => hreturn he
    rw [List.flatMap_cons]
    by_cases hfeed : c = '\n'
    · subst hfeed
      obtain rfl : w = [lineFeed] := hc
      rw [List.count_cons_self, ← hr, Nat.add_comm]
      rfl
    · rw [KeepsLineEnds, if_neg hfeed, if_neg hcr] at hc
      rw [lineEnds_append hc.2.1 hc.2.2, hr, List.count_cons_of_ne hfeed]
  | case4 =>
    obtain rfl := List.map_eq_nil_iff.1 ht
    rfl

/-- A place in a text with its line ends unified is a place in the text. -/
theorem unifyLineEnds_eq_append {t a b : Text} (h : unifyLineEnds t = a ++ b) :
    ∃ x y, t = x ++ y ∧ unifyLineEnds x = a ∧ unifyLineEnds y = b := by
  fun_induction unifyLineEnds t generalizing a with
  | case1 r ih =>
    cases a with
    | nil => exact ⟨[], _, rfl, rfl, h⟩
    | cons c a =>
      obtain ⟨rfl, hrest⟩ := List.cons.inj h
      obtain ⟨x, y, rfl, rfl, hy⟩ := ih hrest
      exact ⟨'\r' :: '\n' :: x, y, rfl, rfl, hy⟩
  | case2 r hne ih =>
    cases a with
    | nil =>
      refine ⟨[], _, rfl, rfl, ?_⟩
      rw [unifyLineEnds]
      · exact h
      · exact hne
    | cons c a =>
      obtain ⟨rfl, hrest⟩ := List.cons.inj h
      obtain ⟨x, y, rfl, rfl, hy⟩ := ih hrest
      refine ⟨'\r' :: x, y, rfl, ?_, hy⟩
      rw [unifyLineEnds]
      rintro z rfl
      exact hne _ rfl
  | case3 c r _ hreturn ih =>
    have hplain : ∀ z, unifyLineEnds (c :: z) = c :: unifyLineEnds z := by
      intro z
      rw [unifyLineEnds]
      · exact fun _ hc _ => hreturn hc
      · exact hreturn
    cases a with
    | nil => exact ⟨[], _, rfl, rfl, (hplain r).trans h⟩
    | cons d a =>
      obtain ⟨rfl, hrest⟩ := List.cons.inj h
      obtain ⟨x, y, rfl, rfl, hy⟩ := ih hrest
      exact ⟨c :: x, y, rfl, hplain x, hy⟩
  | case4 =>
    obtain ⟨rfl, rfl⟩ := List.append_eq_nil_iff.1 h.symm
    exact ⟨[], [], rfl, rfl, rfl⟩

/-! ### Files with lines of their own -/

/-- Whether a file is made of the bytes that the characters of its text are read from, one after
the other, perhaps behind a byte order mark, and its lines end where those of the text do. -/
structure IsSpelled (mark : Bytes) (ps : List (Char × Bytes)) (contents : Bytes) (text : Text) :
    Prop where
  isMark : mark = [] ∨ mark = Encoding.byteOrderMark
  contents_eq : contents = mark ++ ps.flatMap Prod.snd
  text_eq : text = unifyLineEnds (ps.map Prod.fst)
  keeps : ∀ p ∈ ps, KeepsLineEnds p.1 p.2

def HasLinesOfText [Release] (contents : Bytes) : Prop :=
  ∃ mark ps text, Encoding.decodeFile? contents = some text ∧ IsSpelled mark ps contents text

def encodingOf (contents : Bytes) : Encoding :=
  Encoding.ofBody <|
    if Encoding.byteOrderMark.isPrefixOf contents then
      contents.drop Encoding.byteOrderMark.length
    else contents

/-- In an encoding that is known by itself each character is read from bytes of its own. -/
theorem exists_pieces_of_decode? [Release] {e : Encoding} (he : ∀ name, e ≠ .other name)
    {bs : Bytes} {t : Text} (h : e.decode? bs = some t) :
    ∃ ps : List (Char × Bytes), bs = ps.flatMap Prod.snd ∧
      t = unifyLineEnds (ps.map Prod.fst) ∧ ∀ p ∈ ps, KeepsLineEnds p.1 p.2 := by
  have hwide : ∃ ps : List (Char × Bytes), bs = ps.flatMap Prod.snd ∧
      unifyLineEnds (Encoding.widen bs) = unifyLineEnds (ps.map Prod.fst) ∧
      ∀ p ∈ ps, KeepsLineEnds p.1 p.2 := by
    refine ⟨bs.map fun b => (Char.ofNat b.toNat, [b]), ?_, ?_, ?_⟩
    · rw [List.flatMap_map]
      exact (List.flatMap_singleton' bs).symm
    · rw [List.map_map]
      rfl
    · simpa using fun b _ => keepsLineEnds_byte b
  cases e with
  | other name => exact absurd rfl (he name)
  | lenient =>
    cases h
    exact ⟨_, (flatMap_snd_pieces bs).symm, rfl, keepsLineEnds_pieces bs⟩
  | utf8 =>
    obtain ⟨u, hu, rfl⟩ := Option.map_eq_some_iff.1 h
    have hdecode : Utf8.decode bs = .ok u := by
      cases hbs : Utf8.decode bs with
      | error e =>
        rw [hbs] at hu
        cases hu
      | ok u' =>
        rw [hbs] at hu
        exact congrArg Except.ok (Option.some.inj hu)
    refine ⟨u.map fun c => (c, String.utf8EncodeChar c), ?_, ?_, ?_⟩
    · rw [List.flatMap_map]
      exact (Utf8.encode_of_decode hdecode).symm
    · rw [List.map_map]
      exact congrArg unifyLineEnds (List.map_id u).symm
    · simpa using fun c _ => keepsLineEnds_utf8EncodeChar c
  | latin1 =>
    cases h
    exact hwide
  | ascii =>
    rw [Encoding.decode?] at h
    split at h
    · cases h
      exact hwide
    · cases h

theorem hasLinesOfText_of_encodingOf [Release] {contents : Bytes} {text : Text}
    (h : Encoding.decodeFile? contents = some text)
    (hknown : ∀ name, encodingOf contents ≠ .other name) : HasLinesOfText contents := by
  have hdecode := h
  rw [Encoding.decodeFile?] at hdecode
  rw [encodingOf] at hknown
  split at hdecode
  · rename_i hmark
    obtain ⟨body, rfl⟩ := List.isPrefixOf_iff_prefix.1 hmark
    dsimp only at hdecode
    rw [List.drop_left] at hdecode
    split at hdecode
    · obtain ⟨ps, rfl, ht, hkeeps⟩ := exists_pieces_of_decode? (by simp) hdecode
      exact ⟨_, ps, text, h, .inr rfl, rfl, ht, hkeeps⟩
    · cases hdecode
  · rename_i hmark
    rw [if_neg hmark] at hknown
    obtain ⟨ps, rfl, ht, hkeeps⟩ := exists_pieces_of_decode? hknown hdecode
    exact ⟨[], ps, text, h, .inl rfl, rfl, ht, hkeeps⟩

/-! ### The head of a file -/

/-- Whether the bytes at the head of a file, up to a place in it, are those from which the head of
its text is read. -/
structure IsHead [Release] (contents front : Bytes) (a : Text) : Prop where
  isPrefix : front <+: contents
  reads : ∃ mark ps qs b, IsSpelled mark (ps ++ qs) contents (a ++ b) ∧
    Encoding.decodeFile? contents = some (a ++ b) ∧ front = mark ++ ps.flatMap Prod.snd ∧
    a = unifyLineEnds (ps.map Prod.fst)

theorem exists_isHead [Release] {contents : Bytes} {t a : Text} (hlines : HasLinesOfText contents)
    (h : Encoding.decodeFile? contents = some t) (ha : a <+: t) :
    ∃ front, IsHead contents front a := by
  obtain ⟨mark, all, text, htext, hspelled⟩ := hlines
  obtain rfl := Option.some.inj (htext.symm.trans h)
  obtain ⟨b, rfl⟩ := ha
  obtain ⟨x, y, hxy, hx, _⟩ := unifyLineEnds_eq_append hspelled.text_eq.symm
  obtain ⟨ps, qs, rfl, rfl, rfl⟩ := List.map_eq_append_iff.1 hxy
  have hcontents := hspelled.contents_eq
  rw [List.flatMap_append, ← List.append_assoc] at hcontents
  exact ⟨_, ⟨_, hcontents.symm⟩, mark, ps, qs, b, hspelled, h, rfl, hx.symm⟩

/-- As many lines end in the head of a file as in the text that is read from it. -/
theorem IsHead.lineEnds_eq [Release] {contents front : Bytes} {a : Text}
    (h : IsHead contents front a) : lineEnds front = a.count '\n' := by
  obtain ⟨mark, ps, qs, b, hspelled, _, rfl, rfl⟩ := h.reads
  have hplain : lineFeed ∉ mark ∧ carriageReturn ∉ mark := by
    rcases hspelled.isMark with rfl | rfl <;> decide
  rw [lineEnds_append hplain.1 hplain.2]
  exact lineEnds_flatMap fun p hp => hspelled.keeps p (List.mem_append_left _ hp)

end TypedQueries.Companion
