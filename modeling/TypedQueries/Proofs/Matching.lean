import TypedQueries.Proofs.Cutting
import TypedQueries.Proofs.Forms

/-!
# Where directives stand in a text

A directive of a text begins at the least position, not before the end of the directive before it,
at which a written form stands. The forms and their positions are determined by the text, and they
are what its pieces are made of. A text that is written out of forms, with texts between them that
have no two opening braces side by side, is read back as these forms.
-/

namespace TypedQueries.Template

open Directive

/-- A form begins at a position of a text. -/
def StandsAt (t : Text) (i : Nat) (f : Form) : Prop := f.text <+: t.drop i

structure Match where
  start : Nat
  form : Form

namespace Match

def stop (m : Match) : Nat := m.start + m.form.text.length

end Match

/-- The matches from a position on: the first stands at the least position at which a form stands,
and the others are those from its end on. -/
inductive Leftmost (t : Text) : Nat → List Match → Prop where
  | nil {n} : (∀ i f, n ≤ i → ¬StandsAt t i f) → Leftmost t n []
  | cons {n m ms} : n ≤ m.start → StandsAt t m.start m.form →
      (∀ i f, n ≤ i → StandsAt t i f → m.start ≤ i) → Leftmost t m.stop ms →
      Leftmost t n (m :: ms)

/-! ### One form at a position, one list of matches -/

theorem standsAt_iff {t : Text} {i : Nat} {f : Form} :
    StandsAt t i f ↔ ∃ r, t.drop i = f.text ++ r := by
  constructor
  · rintro ⟨r, hr⟩
    exact ⟨r, hr.symm⟩
  · rintro ⟨r, hr⟩
    exact ⟨r, hr.symm⟩

theorem StandsAt.unique {t : Text} {i : Nat} {f g : Form} (hf : StandsAt t i f)
    (hg : StandsAt t i g) : f = g := by
  obtain ⟨r, hr⟩ := standsAt_iff.1 hf
  obtain ⟨s, hs⟩ := standsAt_iff.1 hg
  exact (Form.append_inj (hr.symm.trans hs)).1

theorem Leftmost.unique {t : Text} {n : Nat} {ms ms' : List Match} (h : Leftmost t n ms)
    (h' : Leftmost t n ms') : ms = ms' := by
  induction h generalizing ms' with
  | nil hnone =>
    cases h' with
    | nil => rfl
    | cons hle hstands => exact absurd hstands (hnone _ _ hle)
  | @cons n m ms hle hstands hleast _ ih =>
    cases h' with
    | nil hnone => exact absurd hstands (hnone _ _ hle)
    | @cons _ m' ms' hle' hstands' hleast' hrest' =>
      have hstart : m.start = m'.start :=
        Nat.le_antisymm (hleast _ _ hle' hstands') (hleast' _ _ hle hstands)
      obtain ⟨start, form⟩ := m
      obtain ⟨start', form'⟩ := m'
      obtain rfl : start = start' := hstart
      obtain rfl : form = form' := hstands.unique hstands'
      rw [ih hrest']

/-- A position at which nothing stands can be passed. -/
theorem Leftmost.of_succ {t : Text} {n : Nat} {ms : List Match} (h : Leftmost t (n + 1) ms)
    (hnone : ∀ f, ¬StandsAt t n f) : Leftmost t n ms := by
  have hpast : ∀ i f, n ≤ i → StandsAt t i f → n + 1 ≤ i := by
    intro i f hle hstands
    refine Nat.lt_of_le_of_ne hle ?_
    rintro rfl
    exact hnone f hstands
  cases h with
  | nil h => exact .nil fun i f hle hstands => h i f (hpast i f hle hstands) hstands
  | cons hle hstands hleast hrest =>
    refine .cons (Nat.le_of_succ_le hle) hstands (fun i f hle' hstands' => ?_) hrest
    exact hleast i f (hpast i f hle' hstands') hstands'

/-! ### The matches of a text and its pieces -/

/-- The span of a piece of a text, if it is a directive. -/
def span? (p : Nat × Piece) : Option (Nat × Nat) :=
  p.2.directive?.map fun _ => (p.1, p.1 + p.2.source.length)

/-- What is left of a text after some front has its matches where its directives are. -/
theorem exists_leftmost (front t : Text) :
    ∃ ms, Leftmost (front ++ t) front.length ms ∧
      (pieces t).filterMap Piece.directive? = ms.map (fun m => m.form.directive) ∧
      (locate front.length (pieces t)).filterMap span? = ms.map fun m => (m.start, m.stop) := by
  induction t using text_induction generalizing front with
  | nil =>
    refine ⟨[], .nil fun i f hle hstands => f.text_ne_nil ?_, by simp, by simp [locate]⟩
    unfold StandsAt at hstands
    rw [List.append_nil, List.drop_eq_nil_of_le hle] at hstands
    exact List.prefix_nil.1 hstands
  | char c r hread ih =>
    obtain ⟨ms, hms, hdirectives, hspans⟩ := ih (front ++ [c])
    rw [List.append_assoc, List.length_append] at hms
    rw [List.length_append] at hspans
    refine ⟨ms, hms.of_succ fun f hstands => ?_, ?_, ?_⟩
    · obtain ⟨rest, hrest⟩ := standsAt_iff.1 hstands
      rw [List.singleton_append, List.drop_left] at hrest
      rw [hrest, read?_append f.writes] at hread
      cases hread
    · rw [pieces_cons hread, List.filterMap_cons_none rfl, hdirectives]
    · rw [pieces_cons hread, locate, List.filterMap_cons_none rfl]
      exact hspans
  | directive d s r hwrites ih =>
    obtain ⟨f, rfl, rfl⟩ := writes_iff_exists_form.1 hwrites
    obtain ⟨ms, hms, hdirectives, hspans⟩ := ih (front ++ f.text)
    rw [List.append_assoc, List.length_append] at hms
    rw [List.length_append] at hspans
    have hstands : StandsAt (front ++ (f.text ++ r)) front.length f :=
      standsAt_iff.2 ⟨r, List.drop_left⟩
    refine ⟨⟨front.length, f⟩ :: ms, .cons (Nat.le_refl _) hstands (fun _ _ hle _ => hle) hms,
      ?_, ?_⟩
    · have hdirective : (Piece.directive f.directive f.text).directive? = some f.directive := rfl
      rw [pieces_append hwrites, List.filterMap_cons_some hdirective, List.map_cons, hdirectives]
    · have hspan : span? (front.length, .directive f.directive f.text) =
          some (front.length, front.length + f.text.length) := rfl
      rw [pieces_append hwrites, locate, List.filterMap_cons_some hspan, List.map_cons]
      exact congrArg _ hspans

/-- At most one form stands at a position of a text. The directives of a text are those of the forms
that are found by going, again and again, to the least position behind the last form at which one
stands. They are numbered in this order, and they begin and end where the forms do. -/
theorem directives_leftmost (t : Text) :
    (∀ i f g, StandsAt t i f → StandsAt t i g → f = g) ∧
      ∃ ms, (∀ ms', Leftmost t 0 ms' ↔ ms' = ms) ∧
        indexed t = (ms.map fun m => m.form.directive).zipIdx ∧
        spans t = ms.map fun m => (m.start, m.stop) := by
  obtain ⟨ms, hms, hdirectives, hspans⟩ := exists_leftmost [] t
  refine ⟨fun i f g => StandsAt.unique, ms, fun ms' => ⟨fun h => h.unique hms, ?_⟩,
    congrArg List.zipIdx hdirectives, hspans⟩
  rintro rfl
  exact hms

/-- A directive whose format looks like the beginning of another one. -/
def openingForm : Form where
  beforeName := ⟨" ", by decide⟩
  name := ⟨"x", by decide⟩
  afterName := ⟨[], by decide⟩
  beforeType := ⟨"\t", by decide⟩
  type := ⟨true, some ⟨"m", by decide⟩, ⟨"T", by decide⟩⟩
  ending :=
    .formatted ⟨" ", by decide⟩ ⟨[], by decide⟩ ⟨"%\x7b\x7by:int", by decide⟩ ⟨[], by decide⟩

def wildcardForm : Form where
  beforeName := ⟨[], by decide⟩
  name := ⟨"x", by decide⟩
  afterName := ⟨[], by decide⟩
  beforeType := ⟨[], by decide⟩
  type := ⟨false, none, ⟨"_", by decide⟩⟩
  ending := .plain ⟨[], by decide⟩

/-- In a row of braces the last two open the directive. -/
theorem directives_leftmost_braces :
    let t : Text := '{' :: (openingForm.text ++ '}' :: wildcardForm.text)
    (∀ g, StandsAt t 1 g → g = openingForm) ∧
      ∃ ms, Leftmost t 0 ms ∧ indexed t = (ms.map fun m => m.form.directive).zipIdx := by
  intro t
  obtain ⟨hunique, ms, hms, hindexed, _⟩ := directives_leftmost t
  have hstands : StandsAt t 1 openingForm := ⟨'}' :: wildcardForm.text, rfl⟩
  exact ⟨fun g hg => hunique 1 g openingForm hg hstands, ms, (hms ms).2 rfl, hindexed⟩

/-! ### Texts written out of forms -/

theorem replace_eq (f : Directive → Text) (t : Text) :
    replace f t = weave (leading (pieces t))
      ((segments (pieces t)).map fun g => (f g.directive, g.after)) := by
  unfold replace
  generalize pieces t = ps
  induction ps with
  | nil => rfl
  | cons p ps ih =>
    rw [List.flatMap_cons, ih]
    cases p with
    | char c => simp [leading, segments]
    | directive d s => simp [leading, segments]

/-- A text that is woven from forms, and from texts in which no two opening braces stand side by
side, has the directives of these forms and no others, numbered in order. Replacing them by a text
puts that text in the place of each form. -/
theorem directives_weave_forms (first : Text) (parts : List (Form × Text)) (filler : Text)
    (hfirst : HasNoOpening first) (hparts : ∀ p ∈ parts, HasNoOpening p.2) :
    let t := weave first (parts.map fun p => (p.1.text, p.2))
    indexed t = (parts.map fun p => p.1.directive).zipIdx ∧
      replace (fun _ => filler) t = weave first (parts.map fun p => (filler, p.2)) := by
  intro t
  let gs : List Segment := parts.map fun p => ⟨p.1.directive, p.1.text, p.2⟩
  have hgs : ∀ g ∈ gs, Writes g.directive g.source ∧ HasNoOpening g.after := by
    intro g hg
    obtain ⟨p, hp, rfl⟩ := List.mem_map.1 hg
    exact ⟨p.1.writes, hparts p hp⟩
  have ht : t = weave first (gs.map fun g => (g.source, g.after)) := by
    simp only [t, gs, List.map_map]
    rfl
  obtain ⟨hleading, hsegments⟩ := cut_weave hfirst hgs
  rw [← ht] at hleading hsegments
  constructor
  · rw [indexed, directives_eq, hsegments, List.map_map]
    rfl
  · rw [replace_eq, hleading, hsegments, List.map_map]
    rfl

/-- The texts around the directives may end in a brace. -/
theorem directives_weave_forms_braces :
    let t := weave "a = \x7b" [(openingForm.text, "\x7d : \x7b"), (wildcardForm.text, "%")]
    indexed t = [(⟨"x", "*m.T", some "%\x7b\x7by:int"⟩, 0), (⟨"x", "_", none⟩, 1)] ∧
      replace (fun _ => "?") t = "a = \x7b?\x7d : \x7b?%" := by
  have hparts : ∀ p ∈ [(openingForm, ("\x7d : \x7b" : Text)), (wildcardForm, "%")],
      HasNoOpening p.2 := by
    intro p hp
    rcases List.mem_cons.1 hp with rfl | hp
    · decide
    · rw [List.mem_singleton.1 hp]
      decide
  exact directives_weave_forms "a = \x7b"
    [(openingForm, "\x7d : \x7b"), (wildcardForm, "%")] "?" (by decide) hparts

end TypedQueries.Template
