import Mathlib.Data.List.Induction
import Mathlib.Data.List.Nodup
import SceneLang.Diagnostic.Fix
import SceneLang.Document

/-!
# What fixes do to a text

A fix whose span cuts the text at two of its characters puts its replacement there and leaves the
rest as it is.  That does not make the text one without errors: where the fix of a report is not
placed on what the report is about, the text gets worse.
-/

namespace SceneLang

variable {fix : QuickFix} {front taken back finished : List Char}

/-! ## One fix -/

/-- The span of a fix is the part of the text between two others. -/
structure QuickFix.Covers (fix : QuickFix) (front taken : List Char) : Prop where
  start : fix.span.start = Text.byteLength front
  stop : fix.span.stop = Text.byteLength (front ++ taken)

theorem QuickFix.Covers.apply (h : fix.Covers front taken) :
    fix.apply (front ++ taken ++ back, finished) =
      (front, fix.replacement.toList ++ back ++ finished) := by
  have horder : ¬fix.span.stop < fix.span.start := by
    rw [h.start, h.stop, Text.byteLength_append]
    omega
  have hstop : Text.cut? fix.span.stop (front ++ taken ++ back) = some (front ++ taken, back) := by
    rw [h.stop]
    exact Text.cut?_append (front ++ taken) back
  have hstart : Text.cut? fix.span.start (front ++ taken) = some (front, taken) := by
    rw [h.start]
    exact Text.cut?_append front taken
  simp only [QuickFix.apply, if_neg horder, hstop, hstart]

theorem QuickFix.Covers.applyFixes (h : fix.Covers front taken) :
    applyFixes (front ++ taken ++ back) [fix] = front ++ fix.replacement.toList ++ back := by
  rw [SceneLang.applyFixes, List.mergeSort_singleton, List.foldl_cons, List.foldl_nil, h.apply,
    List.append_nil, List.append_assoc]

/-- The fix covers a part of the text, so that it can be applied. -/
def QuickFix.Fits (fix : QuickFix) (source : List Char) : Prop :=
  ∃ front taken back, source = front ++ taken ++ back ∧ fix.Covers front taken

/-- The fix takes nothing out of the text. -/
def QuickFix.Inserts (fix : QuickFix) (source : List Char) : Prop :=
  ∃ front back, source = front ++ back ∧ fix.Covers front []

namespace QuickFix.Inserts

variable {source : List Char}

theorem fits (h : fix.Inserts source) : fix.Fits source := by
  obtain ⟨front, back, rfl, hcovers⟩ := h
  exact ⟨front, [], back, by rw [List.append_nil], hcovers⟩

end QuickFix.Inserts

/-! ## Repairs -/

end SceneLang

/-!
## Fixes are substituted side by side

Fixes are applied one after another, from the back of a text to its front.  What comes of it is
described by the text alone: some of the fixes lie side by side in it, each at the offsets that it
names, and all of them are replaced at once.  A fix is passed over if its span is no part of the
text, or if it gets in the way of one that is applied.
-/

namespace SceneLang

/-! ## Substitution -/

/-- The fixes are listed in the order of the text, which starts at an offset.  The part that a fix
covers is replaced, what stands between two of them is kept. -/
inductive Substituted : Nat → List Char → List QuickFix → List Char → Prop where
  | done (offset : Nat) (text : List Char) : Substituted offset text [] text
  | replace {offset : Nat} {kept taken rest result : List Char} {fix : QuickFix}
      {fixes : List QuickFix}
      (start : fix.span.start = offset + Text.byteLength kept)
      (stop : fix.span.stop = fix.span.start + Text.byteLength taken)
      (h : Substituted fix.span.stop rest fixes result) :
      Substituted offset (kept ++ taken ++ rest) (fix :: fixes)
        (kept ++ fix.replacement.toList ++ result)

/-- Some byte lies in both spans. -/
def Span.Overlaps (a b : Span) : Prop :=
  ∃ offset, (a.start ≤ offset ∧ offset < a.stop) ∧ b.start ≤ offset ∧ offset < b.stop

/-- The offset lies between two bytes of the span. -/
def Span.Encloses (a : Span) (offset : Nat) : Prop :=
  a.start < offset ∧ offset < a.stop

/-- The fix overlaps another one, or it encloses the place where the other one inserts something. -/
def QuickFix.Obstructs (fix other : QuickFix) : Prop :=
  fix.span.Overlaps other.span ∨
    other.span.start = other.span.stop ∧ fix.span.Encloses other.span.start

namespace Substituted

variable {offset : Nat} {text result : List Char} {fixes : List QuickFix}

/-- What stands in front of all fixes is kept. -/
theorem keep {front : List Char}
    (h : Substituted (offset + Text.byteLength front) text fixes result) :
    Substituted offset (front ++ text) fixes (front ++ result) := by
  cases h with
  | done => exact .done offset _
  | @replace _ kept taken rest result fix fixes start stop h =>
      have hstart : fix.span.start = offset + Text.byteLength (front ++ kept) := by
        rw [start, Text.byteLength_append, Nat.add_assoc]
      have hreplaced := Substituted.replace hstart stop h
      simpa only [List.append_assoc] using hreplaced

theorem le_start (h : Substituted offset text fixes result) {fix : QuickFix}
    (hmem : fix ∈ fixes) : offset ≤ fix.span.start := by
  induction h with
  | done => contradiction
  | replace start stop _ ih =>
      rcases List.mem_cons.mp hmem with rfl | hmem
      · omega
      · have hrest := ih hmem
        omega

/-- Each fix ends before the next one starts. -/
theorem pairwise (h : Substituted offset text fixes result) :
    fixes.Pairwise fun fix next => fix.span.stop ≤ next.span.start := by
  induction h with
  | done => exact .nil
  | replace _ _ h ih => exact .cons (fun next hmem => h.le_start hmem) ih

/-- Each fix covers a part of the text. -/
theorem fits (front : List Char) (h : Substituted (Text.byteLength front) text fixes result)
    {fix : QuickFix} (hmem : fix ∈ fixes) : fix.Fits (front ++ text) := by
  generalize hoffset : Text.byteLength front = offset at h
  induction h generalizing front with
  | done => contradiction
  | @replace offset kept taken rest result first fixes start stop _ ih =>
      subst hoffset
      have hstart : first.span.start = Text.byteLength (front ++ kept) := by
        rw [start, Text.byteLength_append]
      have hstop : first.span.stop = Text.byteLength (front ++ kept ++ taken) := by
        rw [stop, hstart, Text.byteLength_append (front ++ kept)]
      rcases List.mem_cons.mp hmem with rfl | hmem
      · exact ⟨front ++ kept, taken, rest, by simp only [List.append_assoc], hstart, hstop⟩
      · have hrest := ih (front ++ kept ++ taken) hmem hstop.symm
        simpa only [List.append_assoc] using hrest

end Substituted

/-! ## One fix -/

theorem QuickFix.fits_append {fix : QuickFix} {front rest : List Char} (h : fix.Fits (front ++ rest))
    (hstop : fix.span.stop ≤ Text.byteLength front) : fix.Fits front := by
  obtain ⟨before, taken, back, htext, hcovers⟩ := h
  have hle : Text.byteLength (before ++ taken) ≤ Text.byteLength front := by
    rwa [← hcovers.stop]
  obtain ⟨inside, hfront, -⟩ := Text.exists_of_byteLength_le htext.symm hle
  exact ⟨before, taken, inside, hfront, hcovers⟩

/-- A fix that does not cover a part of the front is passed over. -/
theorem QuickFix.apply_of_not_fits {fix : QuickFix} {parts : List Char × List Char}
    (h : ¬fix.Fits parts.1) : fix.apply parts = parts := by
  unfold QuickFix.apply
  split
  · rfl
  split
  · rfl
  next head tail hhead =>
    split
    · rfl
    next kept taken hkept =>
      obtain ⟨hparts, hstop⟩ := Text.append_of_cut? hhead
      obtain ⟨rfl, hstart⟩ := Text.append_of_cut? hkept
      exact absurd ⟨kept, taken, tail, hparts, hstart.symm, hstop.symm⟩ h

/-! ## Fixes one after another -/

/-- Some fixes have been applied and others have been left out. -/
structure Settled (source : List Char) (parts : List Char × List Char)
    (applied left : List QuickFix) : Prop where
  /-- The back is the rest of the text with the fixes substituted in it. -/
  substituted : ∃ rest, source = parts.1 ++ rest ∧
    Substituted (Text.byteLength parts.1) rest applied parts.2
  /-- The front ends where the fix starts that has been applied last. -/
  front : (applied = [] ∧ parts.1 = source) ∨
    ∃ last ∈ applied, Text.byteLength parts.1 = last.span.start ∧
      last.span.start ≤ last.span.stop
  obstructs : ∀ fix ∈ left, ¬fix.Fits source ∨ ∃ other ∈ applied, fix.Obstructs other

section

variable {source front back : List Char} {applied left : List QuickFix} {fix : QuickFix}

theorem settled_start (source : List Char) : Settled source (source, []) [] [] where
  substituted := ⟨[], (List.append_nil source).symm, .done _ []⟩
  front := .inl ⟨rfl, rfl⟩
  obstructs := List.forall_mem_nil _

theorem Settled.apply (h : Settled source (front, back) applied left) (hfits : fix.Fits front) :
    Settled source (fix.apply (front, back)) (fix :: applied) left := by
  obtain ⟨kept, taken, tail, rfl, hcovers⟩ := hfits
  obtain ⟨rest, hsource, hsubstituted⟩ := h.substituted
  have hstop : fix.span.stop = fix.span.start + Text.byteLength taken := by
    rw [hcovers.stop, hcovers.start, Text.byteLength_append]
  rw [hcovers.apply]
  constructor
  · rw [Text.byteLength_append, ← hcovers.stop] at hsubstituted
    have hreplaced : Substituted (Text.byteLength kept) ([] ++ taken ++ (tail ++ rest))
        (fix :: applied) ([] ++ fix.replacement.toList ++ (tail ++ back)) :=
      .replace hcovers.start hstop hsubstituted.keep
    refine ⟨taken ++ (tail ++ rest), ?_, ?_⟩
    · simpa only [List.append_assoc] using hsource
    · simpa only [List.nil_append, List.append_assoc] using hreplaced
  · exact .inr ⟨fix, List.mem_cons_self, hcovers.start.symm, by omega⟩
  · intro other hmem
    rcases h.obstructs other hmem with hunfit | ⟨one, hone, hobstructs⟩
    · exact .inl hunfit
    · exact .inr ⟨one, List.mem_cons_of_mem fix hone, hobstructs⟩

/-- A fix that is passed over gets in the way of the one that has been applied last. -/
theorem Settled.leave (h : Settled source (front, back) applied left)
    (hbefore : ∀ other ∈ applied, other.comesBefore fix = true) (hfits : ¬fix.Fits front) :
    Settled source (fix.apply (front, back)) applied (fix :: left) := by
  rw [QuickFix.apply_of_not_fits hfits]
  refine ⟨h.substituted, h.front, List.forall_mem_cons.mpr ⟨?_, h.obstructs⟩⟩
  by_cases hsource : fix.Fits source
  · obtain ⟨rest, hsplit, -⟩ := h.substituted
    rcases h.front with ⟨-, hfront⟩ | ⟨last, hmem, hfront, hlast⟩
    · dsimp only at hfront
      rw [hfront] at hfits
      contradiction
    · have hstop : last.span.start < fix.span.stop := by
        rw [← hfront]
        by_contra hle
        exact hfits (QuickFix.fits_append (hsplit ▸ hsource) (Nat.le_of_not_lt hle))
      have horder := hbefore last hmem
      simp only [QuickFix.comesBefore, Bool.or_eq_true, Bool.and_eq_true,
        decide_eq_true_eq] at horder
      refine .inr ⟨last, hmem, ?_⟩
      rcases Nat.eq_or_lt_of_le hlast with hempty | hsome
      · exact .inr ⟨hempty, by omega, hstop⟩
      · exact .inl ⟨last.span.start, ⟨by omega, hstop⟩, Nat.le_refl _, hsome⟩
  · exact .inl hsource

/-- Fixes in the order in which they are applied are settled one after another. -/
theorem exists_settled (source : List Char) {ordered : List QuickFix}
    (hordered : ordered.Pairwise fun a b => a.comesBefore b = true) :
    ∃ applied left, (applied ++ left).Perm ordered ∧
      Settled source (ordered.foldl (fun parts fix => fix.apply parts) (source, []))
        applied left := by
  induction ordered using List.reverseRecOn with
  | nil => exact ⟨[], [], .nil, settled_start source⟩
  | append_singleton earlier fix ih =>
      obtain ⟨hearlier, -, hbefore⟩ := List.pairwise_append.mp hordered
      obtain ⟨applied, left, hperm, hsettled⟩ := ih hearlier
      have hlast : (fix :: (applied ++ left)).Perm (earlier ++ [fix]) :=
        (hperm.cons fix).trans (List.perm_append_singleton fix earlier).symm
      rw [List.foldl_concat]
      by_cases hfits : fix.Fits (earlier.foldl (fun parts fix => fix.apply parts) (source, [])).1
      · exact ⟨fix :: applied, left, hlast, hsettled.apply hfits⟩
      · refine ⟨applied, fix :: left, List.perm_middle.trans hlast, ?_⟩
        apply hsettled.leave _ hfits
        intro other hmem
        have hother : other ∈ earlier := hperm.subset (List.mem_append_left left hmem)
        exact hbefore other hother fix List.mem_cons_self

end

/-! ## All fixes -/

theorem QuickFix.comesBefore_trans (a b c : QuickFix) (h : a.comesBefore b = true)
    (h' : b.comesBefore c = true) : a.comesBefore c = true := by
  simp only [comesBefore, Bool.or_eq_true, Bool.and_eq_true, decide_eq_true_eq] at *
  omega

theorem QuickFix.comesBefore_total (a b : QuickFix) :
    (a.comesBefore b || b.comesBefore a) = true := by
  simp only [comesBefore, Bool.or_eq_true, Bool.and_eq_true, decide_eq_true_eq]
  omega

/-- Two fixes that come before each other have the same span. -/
theorem QuickFix.span_eq_of_comesBefore {a b : QuickFix} (h : a.comesBefore b = true)
    (h' : b.comesBefore a = true) : a.span = b.span := by
  simp only [comesBefore, Bool.or_eq_true, Bool.and_eq_true, decide_eq_true_eq] at h h'
  have hstart : a.span.start = b.span.start := by omega
  have hstop : a.span.stop = b.span.stop := by omega
  cases ha : a.span
  cases hb : b.span
  simp_all

theorem pairwise_mergeSort_comesBefore (fixes : List QuickFix) :
    (fixes.mergeSort QuickFix.comesBefore).Pairwise fun a b => a.comesBefore b = true :=
  List.pairwise_mergeSort QuickFix.comesBefore_trans QuickFix.comesBefore_total fixes

/-- Fixes of different spans have one order. -/
theorem mergeSort_comesBefore_eq_of_perm {fixes other : List QuickFix}
    (hspans : (fixes.map (·.span)).Nodup) (hperm : other.Perm fixes) :
    other.mergeSort QuickFix.comesBefore = fixes.mergeSort QuickFix.comesBefore := by
  refine List.Perm.eq_of_pairwise ?_ (pairwise_mergeSort_comesBefore other)
    (pairwise_mergeSort_comesBefore fixes)
    ((List.mergeSort_perm other _).trans (hperm.trans (List.mergeSort_perm fixes _).symm))
  intro a b ha hb hab hba
  have hmem : a ∈ fixes := hperm.subset ((List.mergeSort_perm other _).subset ha)
  have hmem' : b ∈ fixes := (List.mergeSort_perm fixes _).subset hb
  exact List.inj_on_of_nodup_map hspans hmem hmem' (QuickFix.span_eq_of_comesBefore hab hba)

/-- The text with fixes applied to it is the text in which some of them have been substituted all at
once: they cover parts of the text that do not overlap, and every byte outside of these is kept in
its order.  A fix is left out only if its span is no part of the text, or if it overlaps a fix that
is substituted or encloses the place of one.  Where no two fixes have the same span, their order in
the list does not matter. -/
theorem applyFixes_substituted (source : List Char) (fixes : List QuickFix) :
    (∃ applied left, (applied ++ left).Perm fixes ∧
      Substituted 0 source applied (applyFixes source fixes) ∧
      (∀ fix ∈ applied, fix.Fits source) ∧
      applied.Pairwise (fun fix next => fix.span.stop ≤ next.span.start) ∧
      ∀ fix ∈ left, ¬fix.Fits source ∨ ∃ other ∈ applied, fix.Obstructs other) ∧
    ((fixes.map (·.span)).Nodup → ∀ other : List QuickFix, other.Perm fixes →
      applyFixes source other = applyFixes source fixes) := by
  constructor
  · obtain ⟨applied, left, hperm, hsettled⟩ :=
      exists_settled source (pairwise_mergeSort_comesBefore fixes)
    obtain ⟨rest, hsource, hrest⟩ := hsettled.substituted
    have hsubstituted : Substituted 0 source applied (applyFixes source fixes) := by
      rw [← Nat.zero_add (Text.byteLength _)] at hrest
      have hwhole := hrest.keep
      rwa [← hsource] at hwhole
    refine ⟨applied, left, hperm.trans (List.mergeSort_perm fixes _), hsubstituted, ?_,
      hsubstituted.pairwise, hsettled.obstructs⟩
    intro fix hmem
    exact hsubstituted.fits [] hmem
  · intro hspans other hperm
    rw [applyFixes, applyFixes, mergeSort_comesBefore_eq_of_perm hspans hperm]

/-- A colon to insert, a word to replace, a replacement that encloses the colon and starts where a
second one does, and one that starts inside a character. -/
def crowdedFixes : List QuickFix :=
  [⟨"insert ':'", ⟨5, 5⟩, ⟨1, 6⟩, ":"⟩, ⟨"replace 'geomety'", ⟨13, 20⟩, ⟨2, 1⟩, "geometry"⟩,
   ⟨"replace 'color'", ⟨0, 6⟩, ⟨1, 1⟩, "shade "⟩, ⟨"capitalize", ⟨0, 1⟩, ⟨1, 1⟩, "C"⟩,
   ⟨"replace half of it", ⟨9, 10⟩, ⟨1, 9⟩, "e"⟩]

theorem applyFixes_substituted_crowded :
    (crowdedFixes.map (·.span)).Nodup ∧ crowdedFixes.reverse.Perm crowdedFixes ∧
      applyFixes "color \"rèd\"\ngeomety 1".toList crowdedFixes.reverse =
        applyFixes "color \"rèd\"\ngeomety 1".toList crowdedFixes ∧
      applyFixes "color \"rèd\"\ngeomety 1".toList crowdedFixes =
        "Color: \"rèd\"\ngeometry 1".toList := by
  have hnodup : (crowdedFixes.map (·.span)).Nodup := by decide
  have hperm : crowdedFixes.reverse.Perm crowdedFixes := List.reverse_perm _
  refine ⟨hnodup, hperm, (applyFixes_substituted _ crowdedFixes).2 hnodup _ hperm, ?_⟩
  have hsort : crowdedFixes.mergeSort QuickFix.comesBefore =
      [1, 4, 0, 2, 3].filterMap (crowdedFixes[·]?) := by
    simp [crowdedFixes, List.mergeSort, QuickFix.comesBefore]
  rw [applyFixes, hsort]
  decide +kernel

end SceneLang
