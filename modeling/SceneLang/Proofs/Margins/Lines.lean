import SceneLang.Proofs.Margins.Texts
import SceneLang.Proofs.Token.Block

/-!
# Scanners side by side

Two texts that differ only in the margins of lines within braces are scanned side by side: every
step on the one side has its counterpart on the other, but for the layout tokens that the margins
ask for.
-/

namespace SceneLang

open SceneLang.Parser (depthAfter)
open Text (isMargin Aligned Corresponds flush flushFrom)

/-! ## Line breaks within braces -/

namespace Scanner

/-- Does the scanner come to a line break that is within braces and outside of round and square
brackets, with so many characters from there on? -/
def breaksWithin (count depth : Nat) (s : Scanner) : Bool :=
  if s.cursor.rest.length = count then
    s.cursor.rest.head? = some '\n' && s.groups = 0 && 0 < depth
  else
    match _hstep : s.step with
    | .emit token next => next.breaksWithin count (depthAfter depth token.kind)
    | .skip next => next.breaksWithin count depth
    | .finish _ => false
termination_by s.measure
decreasing_by
  · exact measure_emit _hstep
  · exact measure_skip _hstep

variable {s next : Scanner} {token : Token} {count depth : Nat}

theorem breaksWithin_of_length (hlength : s.cursor.rest.length = count) :
    s.breaksWithin count depth =
      (s.cursor.rest.head? = some '\n' && s.groups = 0 && 0 < depth) := by
  rw [breaksWithin, if_pos hlength]

theorem breaksWithin_of_emit (hlength : s.cursor.rest.length ≠ count)
    (hstep : s.step = .emit token next) :
    s.breaksWithin count depth = next.breaksWithin count (depthAfter depth token.kind) := by
  rw [breaksWithin, if_neg hlength]
  split <;> simp_all

theorem breaksWithin_of_skip (hlength : s.cursor.rest.length ≠ count)
    (hstep : s.step = .skip next) : s.breaksWithin count depth = next.breaksWithin count depth := by
  rw [breaksWithin, if_neg hlength]
  split <;> simp_all

theorem bounds_of_breaksWithin (h : s.breaksWithin count depth = true) :
    0 < count ∧ count ≤ s.cursor.rest.length := by
  induction depth, s using breaksWithin.induct count with
  | case1 s depth hlength =>
      rw [breaksWithin_of_length hlength] at h
      simp only [Bool.and_eq_true, decide_eq_true_eq] at h
      refine ⟨?_, Nat.le_of_eq hlength.symm⟩
      rw [← hlength]
      exact List.length_pos_of_mem (List.mem_of_mem_head? h.1.1)
  | case2 s depth hlength token next hstep ih =>
      rw [breaksWithin_of_emit hlength hstep] at h
      obtain ⟨width, hcursor⟩ := cursor_of_emit hstep
      obtain ⟨hpos, hle⟩ := ih h
      rw [hcursor, Cursor.rest_skip, List.length_drop] at hle
      exact ⟨hpos, Nat.le_trans hle (Nat.sub_le _ _)⟩
  | case3 s depth hlength next hstep ih =>
      rw [breaksWithin_of_skip hlength hstep] at h
      obtain ⟨width, hcursor⟩ := cursor_of_skip hstep
      obtain ⟨hpos, hle⟩ := ih h
      rw [hcursor, Cursor.rest_skip, List.length_drop] at hle
      exact ⟨hpos, Nat.le_trans hle (Nat.sub_le _ _)⟩
  | case4 s depth hlength token hstep =>
      rw [breaksWithin, if_neg hlength] at h
      split at h <;> simp_all

end Scanner

/-- The texts are the same but for the margins behind some line breaks, each of which `within`
admits by the number of characters from it on in the first text. -/
inductive Remargined (within : Nat → Prop) : List Char → List Char → Prop
  | same (text : List Char) : Remargined within text text
  | line {blanks blanks' rest rest' : List Char} (inside : List Char)
      (hwithin : within ('\n' :: (blanks ++ rest)).length)
      (hblanks : ∀ c ∈ blanks, isMargin c = true) (hblanks' : ∀ c ∈ blanks', isMargin c = true)
      (hrest : Remargined within rest rest') :
      Remargined within (inside ++ '\n' :: (blanks ++ rest)) (inside ++ '\n' :: (blanks' ++ rest'))

/-- The texts differ only in the spaces and tabs at the beginning of lines that begin within
braces and outside of brackets, comments, quoted texts and interpolations. -/
def SameBesideMargins (source other : List Char) : Prop :=
  Remargined (fun count => (Scanner.ofText source).breaksWithin count 0 = true) source other

namespace Remargined

variable {within within' : Nat → Prop} {text other tail : List Char} {c : Char}

theorem mono (h : Remargined within text other)
    (himp : ∀ count ≤ text.length, within count → within' count) :
    Remargined within' text other := by
  induction h with
  | same text => exact .same text
  | line inside hwithin hblanks hblanks' hrest ih =>
      refine .line inside (himp _ ?_ hwithin) hblanks hblanks' (ih fun count hcount => himp count ?_)
      · rw [List.length_append]
        exact Nat.le_add_left _ _
      · simp only [List.length_append, List.length_cons]
        omega

theorem aligned (h : Remargined within text other) : Aligned text other := by
  induction h with
  | same text => exact .refl text
  | @line blanks blanks' rest rest' inside _ hblanks hblanks' _ ih =>
      constructor
      · have hline (back : List Char) : (inside ++ '\n' :: back).takeWhile (· ≠ '\n') =
            inside.takeWhile (· ≠ '\n') := (breaks_cons back).takeWhile_append (by rfl) inside
        rw [hline, hline]
      · have hbreak (begins : Bool) {blanks : List Char}
            (hblanks : ∀ c ∈ blanks, isMargin c = true) (rest : List Char) :
            flushFrom begins ('\n' :: (blanks ++ rest)) =
              '\n' :: flush (rest.dropWhile isMargin) := by
          rw [flushFrom, Text.isMargin_break, Bool.and_false, if_neg Bool.false_ne_true,
            decide_eq_true rfl, Text.flushFrom_true, List.dropWhile_append_of_pos hblanks]
        rw [flush, flush, Text.flushFrom_append, Text.flushFrom_append, hbreak _ hblanks,
          hbreak _ hblanks', ih.dropWhile_eq]

theorem nil (h : Remargined within [] other) : other = [] := by
  generalize htext : [] = text at h
  cases h with
  | same => rfl
  | line inside => cases inside <;> cases htext

/-- Behind the same first character the texts differ in margins, or it is a line break with
another margin behind it. -/
theorem cons (h : Remargined within (c :: tail) other) :
    (∃ tail', other = c :: tail' ∧ Remargined within tail tail') ∨
      c = '\n' ∧ within (c :: tail).length ∧ ∃ blanks blanks' rest rest',
        tail = blanks ++ rest ∧ other = '\n' :: (blanks' ++ rest') ∧
        (∀ c ∈ blanks, isMargin c = true) ∧ (∀ c ∈ blanks', isMargin c = true) ∧
        Remargined within rest rest' := by
  generalize htext : c :: tail = text at h
  cases h with
  | same =>
      subst htext
      exact .inl ⟨tail, rfl, .same tail⟩
  | line inside hwithin hblanks hblanks' hrest =>
      cases inside with
      | nil =>
          obtain ⟨rfl, rfl⟩ := List.cons.inj htext
          exact .inr ⟨rfl, hwithin, _, _, _, _, rfl, rfl, hblanks, hblanks', hrest⟩
      | cons d inside =>
          obtain ⟨rfl, rfl⟩ := List.cons.inj htext
          exact .inl ⟨_, rfl, .line inside hwithin hblanks hblanks' hrest⟩

/-- So many characters can be taken without coming to a line break with another margin. -/
def Stays (within : Nat → Prop) (text : List Char) (width : Nat) : Prop :=
  ∀ count ≤ text.length, within count → width + count ≤ text.length

/-- The texts are the same up to a line break with another margin, if there is one. -/
theorem exists_front (h : Remargined within text other) :
    text = other ∨ ∃ front back back', text = front ++ '\n' :: back ∧
      other = front ++ '\n' :: back' ∧ within ('\n' :: back).length ∧
      Remargined within ('\n' :: back) ('\n' :: back') := by
  cases h with
  | same => exact .inl rfl
  | line inside hwithin hblanks hblanks' hrest =>
      exact .inr ⟨inside, _, _, rfl, rfl, hwithin, .line [] hwithin hblanks hblanks' hrest⟩

theorem Stays.le_front {width : Nat} {front back : List Char}
    (h : Stays within (front ++ back) width) (hback : within back.length) :
    width ≤ front.length := by
  have hcount := h back.length (by rw [List.length_append]; exact Nat.le_add_left _ _) hback
  rw [List.length_append] at hcount
  omega

theorem append (front : List Char) (h : Remargined within text other) :
    Remargined within (front ++ text) (front ++ other) := by
  cases h with
  | same => exact .same _
  | line inside hwithin hblanks hblanks' hrest =>
      rw [← List.append_assoc, ← List.append_assoc]
      exact .line (front ++ inside) hwithin hblanks hblanks' hrest

section

variable {width : Nat} (h : Remargined within text other) (hstays : Stays within text width)
include h hstays

theorem drop : Remargined within (text.drop width) (other.drop width) := by
  obtain rfl | ⟨front, back, back', rfl, rfl, hwithin, hback⟩ := h.exists_front
  · exact .same _
  · have hwidth := hstays.le_front hwithin
    rw [List.drop_append_of_le_length hwidth, List.drop_append_of_le_length hwidth]
    exact hback.append _

theorem take : text.take width = other.take width := by
  obtain rfl | ⟨front, back, back', rfl, rfl, hwithin, -⟩ := h.exists_front
  · rfl
  · have hwidth := hstays.le_front hwithin
    rw [List.take_append_of_le_length hwidth, List.take_append_of_le_length hwidth]

end

/-! ## What stands at the head of such texts -/

theorem lineHead_eq (h : Remargined within text other)
    (hstays : Stays within text (Scanner.lineHead text).1) :
    Scanner.lineHead other = Scanner.lineHead text := by
  obtain rfl | ⟨front, back, back', rfl, rfl, hwithin, -⟩ := h.exists_front
  · rfl
  · exact Scanner.lineHead_append (breaks_cons back') (hstays.le_front hwithin)

variable {tail' : List Char}

theorem triviaWidth_eq {lineHasToken : Bool} (h : Remargined within (c :: tail) (c :: tail'))
    (hstays : Stays within (c :: tail) (Lexeme.triviaWidth lineHasToken (c :: tail))) :
    Lexeme.triviaWidth lineHasToken (c :: tail') =
      Lexeme.triviaWidth lineHasToken (c :: tail) := by
  obtain hsame | ⟨front, back, back', hfront, hfront', hwithin, -⟩ := h.exists_front
  · rw [hsame]
  rw [hfront] at hstays
  have hwidth := hstays.le_front hwithin
  rw [← hfront] at hwidth
  cases front with
  | nil =>
      obtain ⟨rfl, rfl⟩ := List.cons.inj hfront
      rfl
  | cons d front =>
      obtain ⟨rfl, rfl⟩ := List.cons.inj hfront
      obtain ⟨-, rfl⟩ := List.cons.inj hfront'
      exact Lexeme.triviaWidth_append (breaks_cons back') hwidth

theorem scan_eq {afterValue : Bool} (h : Remargined within (c :: tail) (c :: tail'))
    (hbreak : c ≠ '\n')
    (hstays : ∀ lexeme, Lexeme.scan afterValue c tail = some lexeme →
      Stays within (c :: tail) lexeme.width) :
    Lexeme.scan afterValue c tail' = Lexeme.scan afterValue c tail := by
  obtain hsame | ⟨front, back, back', hfront, hfront', hwithin, -⟩ := h.exists_front
  · rw [(List.cons.inj hsame).2]
  cases front with
  | nil => exact absurd (List.cons.inj hfront).1 hbreak
  | cons d front =>
      obtain ⟨rfl, rfl⟩ := List.cons.inj hfront
      obtain ⟨-, rfl⟩ := List.cons.inj hfront'
      exact Lexeme.scan_append (breaks_cons back') fun lexeme hlexeme =>
        @Stays.le_front within _ (c :: front) _ (hstays lexeme hlexeme) hwithin

end Remargined

end SceneLang
