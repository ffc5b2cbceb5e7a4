import Mathlib.Data.List.TakeWhile
import SceneLang.Proofs.Margins.Pairs

/-!
# Texts that differ in their margins

A text is flush if its lines do not begin with spaces or tabs.  Two texts that are the same once
they are flush differ in their margins only: places in them that have the same text behind them
come in the same order, and what stands between two such places is the same but for margins.
-/

namespace SceneLang

namespace Text

/-- Spaces and tabs make up the margin of a line. -/
def isMargin (c : Char) : Bool :=
  c = ' ' || c = '\t'

/-- The text without the margins of its lines; the flag says whether its first line is one from
its beginning on. -/
def flushFrom : Bool → List Char → List Char
  | _, [] => []
  | begins, c :: rest =>
      if begins && isMargin c then flushFrom true rest
      else c :: flushFrom (c = '\n') rest

/-- The text without the margins of its lines but the first one. -/
def flush (text : List Char) : List Char :=
  flushFrom false text

def flushed (text : String) : String :=
  String.ofList (flush text.toList)

/-- Does a line begin behind a text, with what is left of its margin? -/
def beginsBehind (begins : Bool) (text : List Char) : Bool :=
  text.foldl (fun begins c => begins && isMargin c || c = '\n') begins

theorem isMargin_break : isMargin '\n' = false := rfl

theorem ne_break_of_isMargin {c : Char} (h : isMargin c = true) : c ≠ '\n' := by
  rintro rfl
  contradiction

theorem isBlank_of_isMargin {c : Char} (h : isMargin c = true) : isBlank c = true := by
  rw [isMargin, Bool.or_eq_true, decide_eq_true_eq, decide_eq_true_eq] at h
  obtain rfl | rfl := h <;> rfl

/-! ## Flush texts -/

theorem flushFrom_append (begins : Bool) (front back : List Char) :
    flushFrom begins (front ++ back) =
      flushFrom begins front ++ flushFrom (beginsBehind begins front) back := by
  induction front generalizing begins with
  | nil => rfl
  | cons c front ih =>
      rw [List.cons_append, flushFrom, flushFrom, beginsBehind, List.foldl_cons, ← beginsBehind]
      split
      next hmargin =>
        rw [hmargin, Bool.true_or]
        exact ih true
      next hkept =>
        rw [Bool.eq_false_iff.mpr hkept, Bool.false_or, ih]
        rfl

theorem flushFrom_true (text : List Char) :
    flushFrom true text = flush (text.dropWhile isMargin) := by
  induction text with
  | nil => rfl
  | cons c rest ih =>
      rw [flushFrom, List.dropWhile_cons]
      by_cases hmargin : isMargin c = true
      · rw [if_pos (by rwa [Bool.true_and]), if_pos hmargin]
        exact ih
      · rw [if_neg (by rwa [Bool.true_and]), if_neg hmargin]
        rfl

theorem beginsBehind_margin {begins : Bool} {blanks : List Char}
    (hblanks : ∀ c ∈ blanks, isMargin c = true) : beginsBehind begins blanks = begins := by
  induction blanks with
  | nil => rfl
  | cons c blanks ih =>
      obtain ⟨hc, hblanks⟩ := List.forall_mem_cons.mp hblanks
      rw [beginsBehind, List.foldl_cons, hc, Bool.and_true,
        decide_eq_false (ne_break_of_isMargin hc), Bool.or_false]
      exact ih hblanks

theorem flush_margin {blanks : List Char} (hblanks : ∀ c ∈ blanks, isMargin c = true) :
    flush blanks = blanks := by
  induction blanks with
  | nil => rfl
  | cons c blanks ih =>
      obtain ⟨hc, hblanks⟩ := List.forall_mem_cons.mp hblanks
      rw [flush, flushFrom, Bool.false_and, if_neg Bool.false_ne_true,
        decide_eq_false (ne_break_of_isMargin hc)]
      exact congrArg (c :: ·) (ih hblanks)

theorem flush_append_margin {blanks : List Char} (hblanks : ∀ c ∈ blanks, isMargin c = true)
    (rest : List Char) : flush (blanks ++ rest) = blanks ++ flush rest := by
  rw [flush, flushFrom_append, beginsBehind_margin hblanks]
  exact congrArg (· ++ flush rest) (flush_margin hblanks)

/-- A margin behind a line break is left out. -/
theorem flush_break_margin {blanks : List Char} (hblanks : ∀ c ∈ blanks, isMargin c = true)
    (rest : List Char) : flush ('\n' :: (blanks ++ rest)) = '\n' :: flushFrom true rest := by
  have hbreak : flush ('\n' :: (blanks ++ rest)) = '\n' :: flushFrom true (blanks ++ rest) := rfl
  rw [hbreak, flushFrom_true, flushFrom_true, List.dropWhile_append_of_pos hblanks]

/-- Behind a text that a line begins behind, a line break is the last character. -/
theorem getLast?_of_beginsBehind {text : List Char} (h : beginsBehind false text = true) :
    (flush text).getLast? = some '\n' := by
  suffices hfrom : ∀ begins, beginsBehind begins text = true →
      (flushFrom begins text).getLast? = some '\n' ∨ flushFrom begins text = [] ∧ begins = true by
    obtain hlast | ⟨_, hfalse⟩ := hfrom false h
    · exact hlast
    · contradiction
  clear h
  induction text with
  | nil => exact fun begins h => .inr ⟨rfl, h⟩
  | cons c rest ih =>
      intro begins h
      rw [beginsBehind, List.foldl_cons, ← beginsBehind] at h
      rw [flushFrom]
      split
      next hmargin =>
        rw [hmargin, Bool.true_or] at h
        rw [Bool.and_eq_true] at hmargin
        exact (ih true h).imp id fun hrest => ⟨hrest.1, hmargin.1⟩
      next hkept =>
        rw [Bool.eq_false_iff.mpr hkept, Bool.false_or] at h
        refine .inl ?_
        obtain hlast | ⟨hnil, hbreak⟩ := ih _ h
        · rw [List.getLast?_cons, hlast]
          rfl
        · rw [hnil, of_decide_eq_true hbreak]
          rfl

/-! ## Ink and trimming -/

/-- The number of characters that no margin is made of. -/
def ink (text : List Char) : Nat :=
  text.countP (!isMargin ·)

theorem ink_append (front back : List Char) : ink (front ++ back) = ink front + ink back :=
  List.countP_append

theorem ink_flushFrom (begins : Bool) (text : List Char) :
    ink (flushFrom begins text) = ink text := by
  induction text generalizing begins with
  | nil => rfl
  | cons c rest ih =>
      rw [flushFrom]
      split
      next hmargin =>
        rw [Bool.and_eq_true] at hmargin
        rw [ih, ink, ink, List.countP_cons_of_neg (by simp [hmargin.2])]
      next =>
        rw [ink, ink, List.countP_cons, List.countP_cons]
        exact congrArg (· + _) (ih _)

theorem isMargin_of_ink_eq_zero (text : List Char) (h : ink text = 0) :
    ∀ c ∈ text, isMargin c = true := by
  intro c hmem
  have hnone := List.countP_eq_zero.mp h c hmem
  simpa using hnone

theorem trimStart_flushFrom (begins : Bool) (text : List Char) :
    trimStart (flushFrom begins text) = flush (trimStart text) := by
  induction text generalizing begins with
  | nil => rfl
  | cons c rest ih =>
      rw [trimStart, trimStart] at *
      rw [flushFrom, List.dropWhile_cons]
      split
      next hmargin =>
        rw [Bool.and_eq_true] at hmargin
        rw [if_pos (isBlank_of_isMargin hmargin.2)]
        exact ih true
      next =>
        rw [List.dropWhile_cons]
        split
        · exact ih _
        · rw [flush, flushFrom, Bool.false_and, if_neg Bool.false_ne_true]

theorem trimEnd_cons (c : Char) (rest : List Char) :
    trimEnd (c :: rest) =
      if trimEnd rest = [] then if isBlank c then [] else [c] else c :: trimEnd rest := by
  rw [trimEnd]
  split
  next hnil => rw [if_pos hnil]
  next hkept => rw [if_neg hkept]

theorem ink_trimEnd_pos {text : List Char} (h : trimEnd text ≠ []) : 0 < ink (trimEnd text) := by
  induction text with
  | nil => exact absurd rfl h
  | cons c rest ih =>
      rw [trimEnd_cons] at h ⊢
      split
      next hnil =>
        rw [if_pos hnil] at h
        split
        next hblank => exact absurd (if_pos hblank) h
        next hblank =>
          have hmargin : isMargin c = false :=
            Bool.eq_false_iff.mpr fun hmargin => hblank (isBlank_of_isMargin hmargin)
          rw [ink, List.countP_singleton, hmargin]
          exact Nat.zero_lt_one
      next hkept =>
        rw [ink, List.countP_cons]
        exact Nat.lt_of_lt_of_le (ih hkept) (Nat.le_add_right _ _)

theorem trimEnd_flushFrom (begins : Bool) (text : List Char) :
    trimEnd (flushFrom begins text) = flushFrom begins (trimEnd text) := by
  induction text generalizing begins with
  | nil => rfl
  | cons c rest ih =>
      -- What is kept of the rest has ink, so it does not vanish in the flush text.
      have hkept (begins : Bool) (h : trimEnd rest ≠ []) : flushFrom begins (trimEnd rest) ≠ [] := by
        intro hnil
        have hink := ink_trimEnd_pos h
        rw [← ink_flushFrom begins, hnil] at hink
        exact absurd hink (Nat.lt_irrefl 0)
      rw [trimEnd_cons, flushFrom]
      by_cases hmargin : (begins && isMargin c) = true
      · rw [if_pos hmargin, ih]
        rw [Bool.and_eq_true] at hmargin
        by_cases hnil : trimEnd rest = []
        · rw [if_pos hnil, hnil, if_pos (isBlank_of_isMargin hmargin.2)]
          rfl
        · rw [if_neg hnil, flushFrom, hmargin.1, hmargin.2]
          rfl
      · rw [if_neg hmargin, trimEnd_cons, ih]
        by_cases hnil : trimEnd rest = []
        · rw [if_pos hnil, hnil, flushFrom, if_pos rfl]
          split
          · rfl
          · rw [flushFrom, if_neg hmargin, flushFrom]
        · rw [if_neg hnil, if_neg (hkept _ hnil), flushFrom, if_neg hmargin]

theorem trim_flush (text : List Char) : trim (flush text) = flush (trim text) := by
  rw [trim, flush, trimStart_flushFrom, flush, trimEnd_flushFrom]
  rfl

/-! ## Places with the same text behind them -/

/-- The texts are the same but for the margins of their lines, and begin with the same line. -/
structure Aligned (text other : List Char) : Prop where
  line : text.takeWhile (· ≠ '\n') = other.takeWhile (· ≠ '\n')
  flush : flush text = Text.flush other

namespace Aligned

variable {text other front front' back back' : List Char}

theorem refl (text : List Char) : Aligned text text := ⟨rfl, rfl⟩

theorem symm (h : Aligned text other) : Aligned other text := ⟨h.line.symm, h.flush.symm⟩

theorem ink_eq (h : Aligned text other) : ink text = ink other := by
  rw [← ink_flushFrom false text, ← ink_flushFrom false other]
  exact congrArg ink h.flush

theorem takeWhile_eq (h : Aligned text other) :
    text.takeWhile isMargin = other.takeWhile isMargin := by
  have hline (text : List Char) :
      (text.takeWhile (· ≠ '\n')).takeWhile isMargin = text.takeWhile isMargin := by
    rw [List.takeWhile_takeWhile]
    congr 1
    funext c
    by_cases hmargin : isMargin c = true
    · simp [hmargin, ne_break_of_isMargin hmargin]
    · simp [hmargin]
  rw [← hline text, h.line, hline]

theorem dropWhile_eq (h : Aligned text other) :
    Text.flush (text.dropWhile isMargin) = Text.flush (other.dropWhile isMargin) := by
  have hmargin (text : List Char) : ∀ c ∈ text.takeWhile isMargin, isMargin c = true :=
    fun c hmem => List.mem_takeWhile_imp hmem
  have hflush := h.flush
  rw [← List.takeWhile_append_dropWhile (p := isMargin) (l := text),
    ← List.takeWhile_append_dropWhile (p := isMargin) (l := other),
    flush_append_margin (hmargin text), flush_append_margin (hmargin other), h.takeWhile_eq] at hflush
  exact List.append_cancel_left hflush

/-- What stands between two pairs of places is the same but for margins. -/
theorem flush_between (h : Aligned (front ++ back) (front' ++ back')) (hback : Aligned back back') :
    Text.flush front = Text.flush front' := by
  have hsplit (front back : List Char) : Text.flush (front ++ back) =
      Text.flush front ++ (if beginsBehind false front then [] else back.takeWhile isMargin) ++
        Text.flush (back.dropWhile isMargin) := by
    rw [Text.flush, flushFrom_append]
    cases beginsBehind false front with
    | true => rw [flushFrom_true, if_pos rfl, List.append_nil]; rfl
    | false =>
        rw [if_neg Bool.false_ne_true, List.append_assoc,
          ← flush_append_margin fun c hmem => List.mem_takeWhile_imp hmem,
          List.takeWhile_append_dropWhile]
        rfl
  have hwhole := h.flush
  rw [hsplit, hsplit, hback.takeWhile_eq, hback.dropWhile_eq] at hwhole
  have hfronts := List.append_cancel_right hwhole
  -- A text behind which a line begins ends with a line break, and no margin does.
  have hends {front front' : List Char} (hbegins : beginsBehind false front = true)
      (heq : Text.flush front = Text.flush front' ++ back'.takeWhile isMargin) :
      back'.takeWhile isMargin = [] := by
    have hlast := getLast?_of_beginsBehind hbegins
    rw [heq] at hlast
    by_contra hne
    rw [List.getLast?_append_of_ne_nil _ hne] at hlast
    have hmargin := List.mem_takeWhile_imp (List.mem_of_getLast? hlast)
    contradiction
  cases hbegins : beginsBehind false front with
  | true =>
      cases hbegins' : beginsBehind false front' with
      | true => simpa [hbegins, hbegins'] using hfronts
      | false =>
          simp only [hbegins, hbegins', if_true, Bool.false_eq_true, if_false,
            List.append_nil] at hfronts
          rw [hfronts, hends hbegins hfronts, List.append_nil]
  | false =>
      cases hbegins' : beginsBehind false front' with
      | true =>
          simp only [hbegins, hbegins', if_true, Bool.false_eq_true, if_false,
            List.append_nil] at hfronts
          rw [← hfronts, hends hbegins' hfronts.symm, List.append_nil]
      | false =>
          rw [hbegins, hbegins'] at hfronts
          exact List.append_cancel_right hfronts

/-- Of two places the later one has less behind it, in the one text as in the other. -/
theorem length_le (h : Aligned (front ++ back) text) (hback : Aligned back (front' ++ text)) :
    front' = [] := by
  have hink := h.ink_eq
  have hinkBack := hback.ink_eq
  rw [ink_append] at hink hinkBack
  have hmargin := isMargin_of_ink_eq_zero front (by omega)
  have hmargin' := isMargin_of_ink_eq_zero front' (by omega)
  have hsame {blanks : List Char} (hblanks : ∀ c ∈ blanks, isMargin c = true) (rest : List Char) :
      (blanks ++ rest).takeWhile (· ≠ '\n') = blanks ++ rest.takeWhile (· ≠ '\n') :=
    List.takeWhile_append_of_pos fun c hmem =>
      decide_eq_true (ne_break_of_isMargin (hblanks c hmem))
  have hline := congrArg List.length h.line
  have hlineBack := congrArg List.length hback.line
  rw [hsame hmargin, List.length_append] at hline
  rw [hsame hmargin', List.length_append] at hlineBack
  exact List.eq_nil_of_length_eq_zero (by omega)

end Aligned

/-! ## Places that correspond to each other -/

/-- Two places, one in each text, with the same text behind them. -/
def Corresponds (source other : List Char) (offset offset' : Nat) : Prop :=
  ∃ front back front' back', source = front ++ back ∧ other = front' ++ back' ∧
    byteLength front = offset ∧ byteLength front' = offset' ∧ Aligned back back'

theorem after?_byteLength (front back : List Char) :
    after? (byteLength front) (front ++ back) = some back := by
  rw [after?_eq_cut?, cut?_append, Option.map_some]

theorem slice_between (front inside back : List Char) :
    slice (front ++ (inside ++ back)) (byteLength front) (byteLength (front ++ inside)) =
      inside := by
  rw [slice, slice?, after?_byteLength, byteLength_append, if_pos (Nat.le_add_right _ _), Option.bind_some,
    Nat.add_sub_cancel_left, cut?_append]
  rfl

theorem slice_of_lt {text : List Char} {start stop : Nat} (h : stop < start) :
    slice text start stop = [] := by
  rw [slice, slice?, if_neg (Nat.not_le_of_lt h)]
  rfl

namespace Corresponds

variable {source other : List Char} {a a' b b' : Nat}

theorem symm (h : Corresponds source other a a') : Corresponds other source a' a := by
  obtain ⟨front, back, front', back', hsource, hother, ha, ha', hback⟩ := h
  exact ⟨front', back', front, back, hother, hsource, ha', ha, hback.symm⟩

theorem le (ha : Corresponds source other a a') (hb : Corresponds source other b b')
    (hle : a ≤ b) : a' ≤ b' := by
  obtain ⟨front, back, front', back', rfl, rfl, rfl, rfl, hback⟩ := ha
  obtain ⟨longer, rest, longer', rest', hsource, hother, rfl, rfl, hrest⟩ := hb
  obtain ⟨inside, rfl, rfl⟩ := exists_of_byteLength_le hsource hle
  by_contra hlt
  obtain ⟨inside', rfl, rfl⟩ :=
    exists_of_byteLength_le hother.symm (Nat.le_of_lt (Nat.lt_of_not_le hlt))
  have hnil := hback.length_le hrest
  subst hnil
  rw [List.append_nil] at hlt
  exact hlt (Nat.le_refl _)

theorem le_iff (ha : Corresponds source other a a') (hb : Corresponds source other b b') :
    a ≤ b ↔ a' ≤ b' :=
  ⟨ha.le hb, ha.symm.le hb.symm⟩

theorem flush_slice (ha : Corresponds source other a a') (hb : Corresponds source other b b') :
    Text.flush (trim (slice source a b)) = Text.flush (trim (slice other a' b')) := by
  rw [← trim_flush, ← trim_flush]
  by_cases hle : a ≤ b
  · have hle' := ha.le hb hle
    obtain ⟨front, back, front', back', rfl, rfl, rfl, rfl, hback⟩ := ha
    obtain ⟨longer, rest, longer', rest', hsource, hother, rfl, rfl, hrest⟩ := hb
    obtain ⟨inside, rfl, rfl⟩ := exists_of_byteLength_le hsource hle
    obtain ⟨inside', rfl, rfl⟩ := exists_of_byteLength_le hother hle'
    rw [slice_between, slice_between, hback.flush_between hrest]
  · have hlt := Nat.lt_of_not_le hle
    have hlt' := Nat.lt_of_not_le fun hle' => hle (ha.symm.le hb.symm hle')
    rw [slice_of_lt hlt, slice_of_lt hlt']

end Corresponds

end Text

open Text

/-- Two texts that are the same but for the margins of their lines. -/
def Margins.ofAligned (options : ParseOptions) {source other : List Char}
    (h : Aligned source other) : Margins where
  here := source
  there := other
  options := options
  offset := Corresponds source other
  text := flushed
  order := Corresponds.le_iff
  slice ha hb := by
    rw [flushed, flushed, String.toList_ofList, String.toList_ofList, ha.flush_slice hb]
  origin := ⟨[], source, [], other, rfl, rfl, rfl, rfl, h⟩
  whole := ⟨source, [], other, [], (List.append_nil _).symm, (List.append_nil _).symm, rfl, rfl,
    .refl []⟩

end SceneLang
