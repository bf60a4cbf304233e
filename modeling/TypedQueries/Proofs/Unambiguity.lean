import Mathlib.Data.List.Basic
import TypedQueries.Proofs.Forms
import TypedQueries.Proofs.RoundTrip

/-!
# What is emitted tells the parameter sets apart

The text of a companion's body determines the parameter sets that it was made of. It is taken apart
from left to right: each part ends at a mark that cannot belong to it. A class gives the names and
the types of the fields and, in order, what stands in the slots; and the occurrences of a field are
the slots that name it.
-/

namespace TypedQueries.Source

open Text Text.AsciiQuoted

/-! ### Quoted texts -/

/-- The first unit of 16 bits that a quoted text stands for, and the rest. -/
def firstUnit? : Text → Option (Nat × Text)
  | '\\' :: 'u' :: r => (Literal.readHex? 0 4 r).map fun f => (f.value, f.rest)
  | '\\' :: e :: r => (Literal.letterEscapes.lookup e).map fun c => (c.toNat, r)
  | c :: r => some (c.toNat, r)
  | [] => none

theorem firstUnit?_unit {n : Nat} (hn : n < 0x10000) (r : Text) :
    firstUnit? (unit n ++ r) = some (n, r) := by
  obtain ⟨h, hhex⟩ := readHex?_hex n r
  rw [Nat.mod_eq_of_lt hn] at hhex
  change (Literal.readHex? 0 4 (hex 4 n ++ r)).map _ = _
  rw [hhex]
  rfl

theorem firstUnit?_encodeChar (c : Char) (r : Text) :
    (c.toNat < 0x10000 ∧ firstUnit? (encodeChar c ++ r) = some (c.toNat, r)) ∨
      (0x10000 ≤ c.toNat ∧
        firstUnit? (encodeChar c ++ r) = some ((halves c).1, unit (halves c).2 ++ r)) := by
  rcases encodeChar_cases c with ⟨e, he, hlookup, _, _, hsmall⟩ | ⟨he, _, hslash, _, _, hsmall⟩ |
    ⟨he, hsmall⟩ | ⟨he, hlarge⟩
  · have hu : e ≠ 'u' := by
      rintro rfl
      exact absurd hlookup (by simp [show Literal.letterEscapes.lookup 'u' = none by decide])
    refine .inl ⟨hsmall, ?_⟩
    rw [he, List.cons_append, List.cons_append, List.nil_append, firstUnit?, hlookup]
    · rfl
    · exact hu
  · refine .inl ⟨hsmall, ?_⟩
    rw [he, List.singleton_append, firstUnit?]
    · intro r' h
      exact absurd h hslash
    · intro e r' h
      exact absurd h hslash
  · refine .inl ⟨hsmall, ?_⟩
    rw [he, firstUnit?_unit hsmall]
  · obtain ⟨_, hhigh, _, _⟩ := halves_bounds hlarge
    refine .inr ⟨hlarge, ?_⟩
    rw [he, List.append_assoc, firstUnit?_unit (by omega)]

theorem toNat_ne_half (c : Char) {d : Char} (hd : 0x10000 ≤ d.toNat) :
    c.toNat ≠ (halves d).1 := by
  have hvalid : c.toNat < 0xd800 ∨ 0xdfff < c.toNat ∧ c.toNat < 0x110000 := c.valid
  obtain ⟨hlow, hhigh, _, _⟩ := halves_bounds hd
  omega

theorem halves_inj {c d : Char} (hc : 0x10000 ≤ c.toNat) (hd : 0x10000 ≤ d.toNat)
    (hhigh : (halves c).1 = (halves d).1) (hlow : (halves c).2 = (halves d).2) : c = d := by
  simp only [halves] at hhigh hlow
  apply Char.toNat_inj.1
  omega

theorem encodeChar_append_inj {c d : Char} {r s : Text}
    (h : encodeChar c ++ r = encodeChar d ++ s) : c = d ∧ r = s := by
  have hunit := congrArg firstUnit? h
  rcases firstUnit?_encodeChar c r with ⟨_, hc⟩ | ⟨hlarge, hc⟩
  · rcases firstUnit?_encodeChar d s with ⟨_, hd⟩ | ⟨hlarge', hd⟩
    · rw [hc, hd] at hunit
      obtain ⟨hcode, hrest⟩ := Prod.mk.inj (Option.some.inj hunit)
      exact ⟨Char.toNat_inj.1 hcode, hrest⟩
    · rw [hc, hd] at hunit
      exact absurd (Prod.mk.inj (Option.some.inj hunit)).1 (toNat_ne_half c hlarge')
  · obtain ⟨_, _, _, hbound⟩ := halves_bounds hlarge
    rcases firstUnit?_encodeChar d s with ⟨_, hd⟩ | ⟨hlarge', hd⟩
    · rw [hc, hd] at hunit
      exact absurd (Prod.mk.inj (Option.some.inj hunit)).1.symm (toNat_ne_half d hlarge)
    · obtain ⟨_, _, _, hbound'⟩ := halves_bounds hlarge'
      rw [hc, hd] at hunit
      obtain ⟨hhigh, hrest⟩ := Prod.mk.inj (Option.some.inj hunit)
      have hsecond := congrArg firstUnit? hrest
      rw [firstUnit?_unit (by omega), firstUnit?_unit (by omega)] at hsecond
      obtain ⟨hlow, hrest⟩ := Prod.mk.inj (Option.some.inj hsecond)
      exact ⟨halves_inj hlarge hlarge' hhigh hlow, hrest⟩

/-- A quoted text ends at its second quote, whatever follows it. -/
theorem encode_append_inj {a b r s : Text} (h : encode a ++ r = encode b ++ s) :
    a = b ∧ r = s := by
  have hopen (t u : Text) : encode t ++ u = '"' :: (t.flatMap encodeChar ++ '"' :: u) := by
    simp [encode]
  rw [hopen, hopen] at h
  replace h := (List.cons.inj h).2
  induction a generalizing b with
  | nil =>
    cases b with
    | nil => exact ⟨rfl, (List.cons.inj h).2⟩
    | cons d b =>
      obtain ⟨e, u, he, hquote⟩ := encodeChar_eq_cons d
      rw [List.flatMap_cons, he] at h
      exact absurd (List.cons.inj h).1.symm hquote
  | cons c a ih =>
    cases b with
    | nil =>
      obtain ⟨e, u, he, hquote⟩ := encodeChar_eq_cons c
      rw [List.flatMap_cons, he] at h
      exact absurd (List.cons.inj h).1 hquote
    | cons d b =>
      rw [List.flatMap_cons, List.flatMap_cons, List.append_assoc, List.append_assoc] at h
      obtain ⟨rfl, hmore⟩ := encodeChar_append_inj h
      obtain ⟨rfl, hrest⟩ := ih hmore
      exact ⟨rfl, hrest⟩

end TypedQueries.Source

namespace TypedQueries.Companion

open Text Directive

/-! ### Lists of items -/

def isMark (c : Char) : Bool := c = ',' || c = ']'

/-- Items that all begin with a character other than the closing bracket, and that end where a mark
follows. -/
structure IsDelimited {α : Type} (f : α → Text) (P : α → Prop) : Prop where
  first : ∃ c, c ≠ ']' ∧ ∀ a, (f a).head? = some c
  inj : ∀ {a b : α} {c d : Char} {r s : Text}, P a → P b → isMark c = true → isMark d = true →
    f a ++ c :: r = f b ++ d :: s → a = b ∧ c :: r = d :: s

section Items

variable {α : Type} {f : α → Text} {P : α → Prop}

/-- What stands behind an item when `r` stands behind the list. -/
def furtherItems (f : α → Text) (r : Text) : List α → Text
  | [] => ']' :: r
  | a :: as => ',' :: ' ' :: (f a ++ furtherItems f r as)

theorem join_cons_append (f : α → Text) (a : α) (as : List α) (r : Text) :
    join [',', ' '] ((a :: as).map f) ++ ']' :: r = f a ++ furtherItems f r as := by
  induction as generalizing a with
  | nil => rfl
  | cons b as ih =>
    rw [List.map_cons, List.map_cons, join_cons_cons, List.append_assoc, List.append_assoc,
      ← List.map_cons, ih b]
    rfl

theorem furtherItems_eq_cons (f : α → Text) (r : Text) (as : List α) :
    ∃ c u, isMark c = true ∧ furtherItems f r as = c :: u := by
  cases as with
  | nil => exact ⟨_, _, by decide, rfl⟩
  | cons a as => exact ⟨_, _, by decide, rfl⟩

theorem item_append_inj (hf : IsDelimited f P) {a b : α} {as bs : List α} {r s : Text} (ha : P a)
    (hb : P b) (h : f a ++ furtherItems f r as = f b ++ furtherItems f s bs) :
    a = b ∧ furtherItems f r as = furtherItems f s bs := by
  obtain ⟨c, u, hc, hu⟩ := furtherItems_eq_cons f r as
  obtain ⟨d, v, hd, hv⟩ := furtherItems_eq_cons f s bs
  rw [hu, hv] at h ⊢
  exact hf.inj ha hb hc hd h

theorem furtherItems_inj (hf : IsDelimited f P) {as bs : List α} {r s : Text}
    (ha : ∀ a ∈ as, P a) (hb : ∀ b ∈ bs, P b) (h : furtherItems f r as = furtherItems f s bs) :
    as = bs ∧ r = s := by
  induction as generalizing bs with
  | nil =>
    cases bs with
    | nil => exact ⟨rfl, (List.cons.inj h).2⟩
    | cons b bs => cases h
  | cons a as ih =>
    cases bs with
    | nil => cases h
    | cons b bs =>
      rw [List.forall_mem_cons] at ha hb
      obtain ⟨rfl, hmore⟩ := item_append_inj hf ha.1 hb.1 (List.cons.inj (List.cons.inj h).2).2
      obtain ⟨rfl, hrest⟩ := ih ha.2 hb.2 hmore
      exact ⟨rfl, hrest⟩

/-- A list of delimited items ends at its bracket, whatever follows it. -/
theorem join_append_inj (hf : IsDelimited f P) {as bs : List α} {r s : Text}
    (ha : ∀ a ∈ as, P a) (hb : ∀ b ∈ bs, P b)
    (h : join [',', ' '] (as.map f) ++ ']' :: r = join [',', ' '] (bs.map f) ++ ']' :: s) :
    as = bs ∧ r = s := by
  have hnil (a : α) (as : List α) (r s : Text) : f a ++ furtherItems f r as ≠ ']' :: s := by
    obtain ⟨c, hc, hfirst⟩ := hf.first
    obtain ⟨u, hu⟩ := List.head?_eq_some_iff.1 (hfirst a)
    intro h
    rw [hu] at h
    exact hc (List.cons.inj h).1
  cases as with
  | nil =>
    cases bs with
    | nil => exact ⟨rfl, (List.cons.inj h).2⟩
    | cons b bs =>
      rw [join_cons_append] at h
      exact absurd h.symm (hnil b bs s r)
  | cons a as =>
    rw [join_cons_append] at h
    cases bs with
    | nil => exact absurd h (hnil a as r s)
    | cons b bs =>
      rw [join_cons_append] at h
      rw [List.forall_mem_cons] at ha hb
      obtain ⟨rfl, hmore⟩ := item_append_inj hf ha.1 hb.1 h
      obtain ⟨rfl, hrest⟩ := furtherItems_inj hf ha.2 hb.2 hmore
      exact ⟨rfl, hrest⟩

end Items

theorem isDelimited_encode : IsDelimited AsciiQuoted.encode fun _ => True :=
  ⟨⟨'"', by decide, fun _ => rfl⟩, fun _ _ _ _ h => Source.encode_append_inj h⟩

theorem isNamePart_of_isMark {c : Char} (h : isMark c = true) : isNamePart c = false := by
  simp only [isMark, Bool.or_eq_true, decide_eq_true_eq] at h
  rcases h with rfl | rfl
  · decide
  · decide

/-- An argument is delimited because no mark belongs to the name of its field. -/
theorem isDelimited_argument : IsDelimited (fun n => join ['.'] ["self", n]) IsName := by
  refine ⟨⟨'s', by decide, fun _ => rfl⟩, fun ha hb hc hd h => ?_⟩
  have hself (n : Text) : join ['.'] ["self", n] = "self." ++ n := rfl
  rw [hself, hself, List.append_assoc, List.append_assoc, List.append_cancel_left_eq] at h
  exact append_inj_of_stops ha.isNamePart hb.isNamePart
    (stops_cons (isNamePart_of_isMark hc)) (stops_cons (isNamePart_of_isMark hd)) h

/-! ### Fields -/

theorem fieldType_of_head?_ne {t : Text} (h : t.head? ≠ some '*') : fieldType t = t := by
  unfold fieldType
  split
  · exact absurd rfl h
  · rfl

theorem mem_isType {t : Text} (h : IsType t) :
    ∀ c ∈ t, isNamePart c = true ∨ c = '.' ∨ c = '*' := by
  have hqualified : ∀ {n}, IsQualified n → ∀ c ∈ n, isNamePart c = true ∨ c = '.' ∨ c = '*' := by
    intro n hn c hc
    cases hn with
    | bare hn => exact .inl (hn.isNamePart c hc)
    | qualified hq hn =>
      rcases List.mem_append.1 hc with hc | hc
      · exact .inl (hq.isNamePart c hc)
      · rcases List.mem_cons.1 hc with rfl | hc
        · exact .inr (.inl rfl)
        · exact .inl (hn.isNamePart c hc)
  intro c hc
  cases h with
  | plain hn => exact hqualified hn c hc
  | nullable hn =>
    rcases List.mem_cons.1 hc with rfl | hc
    · exact .inr (.inr rfl)
    · exact hqualified hn c hc

theorem IsType.notMem {t : Text} (h : IsType t) {c : Char} (hpart : isNamePart c = false)
    (hdot : c ≠ '.') (hstar : c ≠ '*') : c ∉ t := by
  intro hc
  rcases mem_isType h c hc with hc | hc | hc
  · rw [hpart] at hc
    cases hc
  · exact hdot hc
  · exact hstar hc

/-- The annotation of a field gives its type: only that of a nullable one has a bracket. -/
theorem fieldType_inj {t u : Text} (ht : IsType t) (hu : IsType u)
    (h : fieldType t = fieldType u) : t = u := by
  have hoptional (base : Text) : fieldType ('*' :: base) = "Optional[" ++ base ++ "]" := rfl
  have hbracket {t : Text} (ht : IsType t) : '[' ∉ t :=
    IsType.notMem ht (by decide) (by decide) (by decide)
  have hplain {n : Text} (hn : IsQualified n) : fieldType n = n := by
    obtain ⟨c, r, rfl, hc⟩ := hn.exists_eq_cons
    apply fieldType_of_head?_ne
    intro hstar
    cases hstar
    exact absurd hc (by decide)
  have hmixed {n base : Text} (hn : IsQualified n) : fieldType ('*' :: base) ≠ fieldType n := by
    intro h
    rw [hplain hn, hoptional] at h
    exact hbracket (.plain hn) (h ▸ by simp)
  cases ht with
  | plain hn =>
    cases hu with
    | plain hm => rwa [hplain hn, hplain hm] at h
    | nullable hm => exact absurd h.symm (hmixed hn)
  | nullable hn =>
    cases hu with
    | plain hm => exact absurd h (hmixed hm)
    | nullable hm =>
      rw [hoptional, hoptional, List.append_cancel_right_eq, List.append_cancel_left_eq] at h
      rw [h]

theorem notMem_fieldType {t : Text} (h : IsType t) : '\n' ∉ fieldType t := by
  have hline {t : Text} (ht : IsType t) : '\n' ∉ t :=
    IsType.notMem ht (by decide) (by decide) (by decide)
  rw [fieldType.eq_def]
  split
  · rename_i base
    have hbase := hline h
    rw [List.mem_cons, not_or] at hbase
    simpa using hbase.2
  · exact hline h

def declaration (f : Field) : Text × Text := (f.name, f.typeName)

/-- Whether the name and the type of a field are such as a directive has. -/
def HasNames (f : Field) : Prop := IsName f.name ∧ IsType f.typeName

theorem fieldLine_append_inj {f g : Field} {r s : Text} (hf : HasNames f) (hg : HasNames g)
    (h : fieldLine f ++ '\n' :: r = fieldLine g ++ '\n' :: s) :
    declaration f = declaration g ∧ r = s := by
  have hcolon (t : Text) : Stops isNamePart (':' :: t) := stops_cons (by decide)
  have hfeed (t : Text) : Stops (fun c => decide (c ≠ '\n')) ('\n' :: t) := stops_cons (by decide)
  have hline {t : Text} (ht : IsType t) : ∀ c ∈ fieldType t, decide (c ≠ '\n') = true := by
    intro c hc
    exact decide_eq_true fun he => notMem_fieldType ht (he ▸ hc)
  simp only [fieldLine, List.append_assoc, List.append_cancel_left_eq, List.cons_append] at h
  obtain ⟨hname, htypes⟩ :=
    append_inj_of_stops hf.1.isNamePart hg.1.isNamePart (hcolon _) (hcolon _) h
  obtain ⟨htype, hrest⟩ := append_inj_of_stops (hline hf.2) (hline hg.2) (hfeed r) (hfeed s)
    (List.cons.inj (List.cons.inj htypes).2).2
  exact ⟨Prod.ext hname (fieldType_inj hf.2 hg.2 htype), (List.cons.inj hrest).2⟩

theorem fieldLines_append_inj {fs gs : List Field} {r s : Text} (hf : ∀ f ∈ fs, HasNames f)
    (hg : ∀ g ∈ gs, HasNames g)
    (h : unlines (fs.map fieldLine) ++ '\n' :: r = unlines (gs.map fieldLine) ++ '\n' :: s) :
    fs.map declaration = gs.map declaration ∧ r = s := by
  have hnil (g : Field) (t u : Text) : '\n' :: t ≠ fieldLine g ++ u := by
    intro h
    cases h
  induction fs generalizing gs with
  | nil =>
    cases gs with
    | nil => exact ⟨rfl, (List.cons.inj h).2⟩
    | cons g gs =>
      rw [List.map_cons, unlines_cons_append] at h
      exact absurd h (hnil g r _)
  | cons f fs ih =>
    rw [List.map_cons, unlines_cons_append] at h
    cases gs with
    | nil => exact absurd h.symm (hnil f s _)
    | cons g gs =>
      rw [List.map_cons, unlines_cons_append] at h
      rw [List.forall_mem_cons] at hf hg
      obtain ⟨hfirst, hmore⟩ := fieldLine_append_inj hf.1 hg.1 h
      obtain ⟨hall, hrest⟩ := ih hf.2 hg.2 hmore
      exact ⟨by rw [List.map_cons, List.map_cons, hfirst, hall], hrest⟩

/-! ### Classes -/

theorem accessor_append_inj {α : Type} {f : α → Text} {P : α → Prop} (hf : IsDelimited f P)
    {as bs : List α} {r s : Text} (ha : ∀ a ∈ as, P a) (hb : ∀ b ∈ bs, P b) (name element : Text)
    (h : unlines (accessorLines name element (as.map f)) ++ r =
      unlines (accessorLines name element (bs.map f)) ++ s) : as = bs ∧ r = s := by
  have hnil (t : Text) : unlines [] ++ t = t := rfl
  simp only [accessorLines, unlines_cons_append, hnil, List.append_assoc,
    List.append_cancel_left_eq, List.cons_append, List.nil_append, List.cons.injEq, true_and] at h
  obtain ⟨hitems, hrest⟩ := join_append_inj hf ha hb h
  exact ⟨hitems, (List.cons.inj hrest).2⟩

/-- The occurrences of a field, told from what stands in the slots. -/
def substitutionsAt (ss : List Slot) (name : Text) : List Substitution :=
  ((indexed ss).filter fun o => o.2.1 = name).map fun o => ⟨o.1, o.2.2⟩

/-- A parameter set that its class determines: the parts of the text are marked off, and the fields
occur where the slots name them. -/
structure IsTold (p : ParamSet) (ss : List Slot) : Prop where
  slots : slots p = .ok ss
  className : Text.isIdentifier p.typeName = true
  fields : ∀ f ∈ p.fields, HasNames f ∧ f.substitutions = substitutionsAt ss f.name
  names : ∀ s ∈ ss, IsName s.1

theorem IsTold.fields_eq {p : ParamSet} {ss : List Slot} (h : IsTold p ss) :
    (p.fields.map declaration).map (fun f => ⟨f.1, f.2, substitutionsAt ss f.1⟩) = p.fields := by
  rw [List.map_map]
  refine (List.map_congr_left fun f hf => ?_).trans (List.map_id p.fields)
  obtain ⟨_, hsubstitutions⟩ := h.fields f hf
  simp only [Function.comp_apply, declaration, ← hsubstitutions, id_eq]

/-- A class ends where it ends, whatever follows it, and there is one parameter set for it. -/
theorem emitClass_append_inj {runtime : Text} {p q : ParamSet} {ss tt : List Slot}
    (hp : IsTold p ss) (hq : IsTold q tt) {t u r s : Text} (ht : emitClassText runtime p = .ok t)
    (hu : emitClassText runtime q = .ok u) (h : t ++ r = u ++ s) : p = q ∧ r = s := by
  obtain rfl := Except.ok.inj ((emitClassText_of_slots hp.slots runtime).symm.trans ht)
  obtain rfl := Except.ok.inj ((emitClassText_of_slots hq.slots runtime).symm.trans hu)
  rw [classLines_eq, classLines_eq] at h
  have hformats (ss : List Slot) : ss.map (fun s => AsciiQuoted.encode s.2) =
      (ss.map Prod.snd).map AsciiQuoted.encode := by
    rw [List.map_map]
    rfl
  have harguments (ss : List Slot) : ss.map (fun s => join ['.'] ["self", s.1]) =
      (ss.map Prod.fst).map fun n => join ['.'] ["self", n] := by
    rw [List.map_map]
    rfl
  have happend (a b : List Text) (w : Text) :
      unlines (a ++ b) ++ w = unlines a ++ (unlines b ++ w) := by
    simp [unlines]
  have hcolon (w : Text) : Stops Text.isIdentifierPart (':' :: w) := stops_cons (by decide)
  simp only [unlines_cons_append, happend, hformats, harguments, List.append_assoc,
    List.append_cancel_left_eq, List.cons_append, List.nil_append, List.cons.injEq, true_and] at h
  obtain ⟨hname, hmore⟩ := append_inj_of_stops (Source.isIdentifierPart_of_mem hp.className)
    (Source.isIdentifierPart_of_mem hq.className) (hcolon _) (hcolon _) h
  obtain ⟨hfields, hmore⟩ := fieldLines_append_inj (fun f hf => (hp.fields f hf).1)
    (fun f hf => (hq.fields f hf).1) (List.cons.inj (List.cons.inj hmore).2).2
  obtain ⟨hspecs, hmore⟩ := accessor_append_inj isDelimited_encode (by simp) (by simp) _ _ hmore
  obtain ⟨hnames, hrest⟩ := accessor_append_inj isDelimited_argument
    (List.forall_mem_map.2 hp.names) (List.forall_mem_map.2 hq.names) _ _ (List.cons.inj hmore).2
  have hslots : ss = tt := by
    rw [← List.zip_unzip ss, ← List.zip_unzip tt, List.unzip_eq_map, List.unzip_eq_map, hspecs,
      hnames]
  refine ⟨?_, hrest⟩
  have hall := hp.fields_eq
  rw [hfields, hslots, hq.fields_eq] at hall
  obtain ⟨name, fields⟩ := p
  rw [ParamSet.mk.injEq]
  exact ⟨hname, hall.symm⟩

/-! ### Bodies -/

theorem exists_emit_of_isTold {ws : List ParamSet} (h : ∀ p ∈ ws, ∃ ss, IsTold p ss)
    (runtime : CodedText) : ∃ t, emit runtime ws = .ok t :=
  exists_emit_of_slots (fun p hp => (h p hp).imp fun _ hss => hss.slots) runtime

/-- A body is empty or begins with a class, which stands for the first parameter set. -/
theorem emitText_inj {runtime : Text} {ws vs : List ParamSet} (hw : ∀ p ∈ ws, ∃ ss, IsTold p ss)
    (hv : ∀ q ∈ vs, ∃ ss, IsTold q ss) {t : Text} (ht : emitText runtime ws = .ok t)
    (hu : emitText runtime vs = .ok t) : ws = vs := by
  have hcons {p : ParamSet} {ps : List ParamSet} (h : ∀ q ∈ p :: ps, ∃ ss, IsTold q ss) {t : Text}
      (ht : emitText runtime (p :: ps) = .ok t) : ∃ ss text body, IsTold p ss ∧
        emitClassText runtime p = .ok text ∧ emitText runtime ps = .ok body ∧
        t = '\n' :: '\n' :: (text ++ body) := by
    rw [List.forall_mem_cons] at h
    obtain ⟨⟨ss, hss⟩, hmore⟩ := h
    obtain ⟨coded, hcoded⟩ := exists_emit_of_isTold hmore runtime
    obtain ⟨body, -, hbody⟩ := exists_emitText hcoded
    have hclass := emitClassText_of_slots hss.slots runtime
    have hall := emitText_cons hclass hbody
    exact ⟨ss, _, body, hss, hclass, hbody, Except.ok.inj (ht.symm.trans hall)⟩
  induction ws generalizing vs t with
  | nil =>
    cases vs with
    | nil => rfl
    | cons q vs =>
      obtain ⟨_, _, _, _, _, _, rfl⟩ := hcons hv hu
      cases ht
  | cons p ws ih =>
    obtain ⟨ss, text, body, hp, hclass, hbody, rfl⟩ := hcons hw ht
    cases vs with
    | nil => cases hu
    | cons q vs =>
      obtain ⟨ss', text', body', hq, hclass', hbody', hsame⟩ := hcons hv hu
      obtain ⟨rfl, rfl⟩ := emitClass_append_inj hp hq hclass hclass'
        (List.cons.inj (List.cons.inj hsame).2).2
      rw [ih (fun r hr => hw r (List.mem_cons_of_mem p hr))
        (fun r hr => hv r (List.mem_cons_of_mem p hr)) hbody hbody']

theorem emit_inj {runtime : CodedText} {ws vs : List ParamSet} (hw : ∀ p ∈ ws, ∃ ss, IsTold p ss)
    (hv : ∀ q ∈ vs, ∃ ss, IsTold q ss) {t : CodedText} (ht : emit runtime ws = .ok t)
    (hu : emit runtime vs = .ok t) : ws = vs := by
  have hstands {ps : List ParamSet} (h : emit runtime ps = .ok t) :
      emitText runtime.replaced ps = .ok t.replaced := by
    rw [emitText_replaced, h]
    rfl
  exact emitText_inj hw hv (hstands ht) (hstands hu)

theorem of_update_eq_none {c : Companions} {t : FileTree} {path : Path} {contents : Bytes}
    {statements : List Source.Statement} {wanted : List ParamSet}
    (hfile : t.read path = .ok contents)
    (h : c.update t path (.module statements) wanted = .ok none) :
    ∃ body, c.body wanted = .ok body ∧
      contents.drop (preambleBytes statements contents) = body := by
  cases hbody : c.body wanted with
  | error e =>
    rw [Companions.update, hbody] at h
    cases h
  | ok body =>
    rw [update_module hbody hfile] at h
    refine ⟨body, rfl, ?_⟩
    by_contra hne
    rw [if_neg hne] at h
    cases h

/-- Whether a parameter set is what the directives of a query text come to, under the name of a
class. -/
structure IsOfQuery (p : ParamSet) : Prop where
  built : ∃ resolve queryName suffix literal,
    (ParamSet.ofDirectives resolve queryName suffix (Template.directives literal)).result =
      .ok (some p)
  className : Text.isIdentifier p.typeName = true

open ParamSet ParamSet.Builder in
theorem IsOfQuery.isTold {p : ParamSet} (h : IsOfQuery p) : ∃ ss, IsTold p ss := by
  obtain ⟨⟨resolve, queryName, suffix, literal, hbuilt⟩, hclass⟩ := h
  obtain ⟨us, rfl, _, hds, hindex, _⟩ := ofDirectives_eq_some hbuilt
  obtain ⟨_, hslots⟩ := @slots_gather (ClassName.ofQuery queryName suffix) us _ hindex
  have hwrites : ∀ u ∈ us, ∃ source, Directive.Writes u.directive source := fun u hu =>
    Template.exists_writes_of_mem_directives (hds ▸ List.mem_map_of_mem hu)
  refine ⟨us.map Taken.slot, hslots, hclass, ?_, ?_⟩
  · intro f hf
    obtain ⟨n, hn, rfl⟩ := List.mem_map.1 hf
    obtain ⟨u, hu, hname⟩ := mem_names.1 hn
    obtain ⟨source, hsource⟩ := hwrites u hu
    obtain ⟨d, hd⟩ := Option.isSome_iff_exists.1 (firstOf_isSome_iff.2 hn)
    obtain ⟨v, hv, rfl⟩ := List.mem_map.1 (of_firstOf hd).1
    obtain ⟨source', hsource'⟩ := hwrites v hv
    refine ⟨⟨hname ▸ hsource.isName, ?_⟩, ?_⟩
    · rw [fieldOf, hd]
      exact hsource'.isType
    · rw [substitutionsAt, indexed_slots hindex, List.filter_map, List.map_map]
      rfl
  · intro s hs
    obtain ⟨u, hu, rfl⟩ := List.mem_map.1 hs
    obtain ⟨source, hsource⟩ := hwrites u hu
    exact hsource.isName

/-- Two lists of parameter sets of queries have the same body only if they are the same list. So an
update that finds the body of one list where it is to write the other leaves the file as it is only
if nothing of the parameters has changed. -/
theorem emit_eq_iff {ws vs : List ParamSet} (hw : ∀ p ∈ ws, IsOfQuery p)
    (hv : ∀ q ∈ vs, IsOfQuery q) :
    (∀ runtime, ∃ t u, emit runtime ws = .ok t ∧ emit runtime vs = .ok u ∧ (t = u ↔ ws = vs)) ∧
    ∀ (c : Companions) (tree : FileTree) (path : Path) (contents : Bytes)
      (statements : List Source.Statement) (body : Bytes), tree.read path = .ok contents →
      c.body ws = .ok body → contents.drop (preambleBytes statements contents) = body →
      (c.update tree path (.module statements) vs = .ok none ↔ ws = vs) := by
  have hw' : ∀ p ∈ ws, ∃ ss, IsTold p ss := fun p hp => (hw p hp).isTold
  have hv' : ∀ q ∈ vs, ∃ ss, IsTold q ss := fun q hq => (hv q hq).isTold
  constructor
  · intro runtime
    obtain ⟨t, ht⟩ := exists_emit_of_isTold hw' runtime
    obtain ⟨u, hu⟩ := exists_emit_of_isTold hv' runtime
    refine ⟨t, u, ht, hu, ?_, ?_⟩
    · rintro rfl
      exact emit_inj hw' hv' ht hu
    · rintro rfl
      exact Except.ok.inj (ht.symm.trans hu)
  · intro c tree path contents statements body hfile hbody hdrop
    obtain ⟨t, ht, rfl⟩ := body_eq_ok_iff.1 hbody
    constructor
    · intro h
      obtain ⟨other, hother, hsame⟩ := of_update_eq_none hfile h
      obtain ⟨u, hu, rfl⟩ := body_eq_ok_iff.1 hother
      have hbodies := congrArg Utf8.decode (hdrop.symm.trans hsame)
      rw [Utf8.decode_encode, Utf8.decode_encode, Except.ok.injEq] at hbodies
      exact emit_inj hw' hv' ht (hbodies ▸ hu)
    · rintro rfl
      rw [update_module hbody hfile, if_pos hdrop]

/-- Another format of one occurrence gives another body. -/
theorem emit_eq_iff_reformatted :
    ∃ t u, emit "interpolate." [tagSet] = .ok t ∧
      emit "interpolate." [⟨"TagQueryParams", [⟨"id", "int", [⟨0, "%d"⟩, ⟨2, "%x"⟩]⟩,
        ⟨"tag", "*app.Tag", [⟨1, "%s"⟩]⟩]⟩] = .ok u ∧ t ≠ u := by
  have htag : IsOfQuery tagSet :=
    ⟨⟨builtin?, "TAG_QUERY", "Params",
      "a = {{ id : int }} b = {{ tag : *app.Tag : %s }} c = {{ id : _ }}", by decide +kernel⟩, by decide⟩
  have hother : IsOfQuery ⟨"TagQueryParams", [⟨"id", "int", [⟨0, "%d"⟩, ⟨2, "%x"⟩]⟩,
      ⟨"tag", "*app.Tag", [⟨1, "%s"⟩]⟩]⟩ :=
    ⟨⟨builtin?, "TAG_QUERY", "Params",
      "a = {{ id : int }} b = {{ tag : *app.Tag : %s }} c = {{ id : _ : %x }}", by decide +kernel⟩, by decide⟩
  obtain ⟨hall, _⟩ := emit_eq_iff (List.forall_mem_singleton.2 htag)
    (List.forall_mem_singleton.2 hother)
  obtain ⟨t, u, ht, hu, hiff⟩ := hall "interpolate."
  exact ⟨t, u, ht, hu, fun h => absurd (hiff.1 h) (by decide)⟩

end TypedQueries.Companion
