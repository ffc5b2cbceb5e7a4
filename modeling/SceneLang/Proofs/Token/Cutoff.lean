import SceneLang.Proofs.Token.Breaks

/-!
# Texts that are cut off

What the scanner finds at the head of a text it finds there as well if the text is cut off behind
it.  Where it looks ahead, it does so to make a token longer, with one exception: a hash sign is no
comment because of the name behind it.
-/

namespace SceneLang

variable {front back : List Char}

/-- A stretch that ends in front of a place goes no further if the text is cut off there. -/
theorem takeWhile_cutoff {p : Char → Bool}
    (hwidth : ((front ++ back).takeWhile p).length ≤ front.length) :
    (front ++ back).takeWhile p = front.takeWhile p := by
  rw [List.takeWhile_append] at hwidth ⊢
  split at hwidth
  next hall =>
    rw [List.length_append] at hwidth
    have hnone : back.takeWhile p = [] := List.eq_nil_of_length_eq_zero (by omega)
    rw [if_pos hall, hnone, List.append_nil]
    exact ((List.takeWhile_prefix p).eq_of_length hall).symm
  next hsome => rw [if_neg hsome]

namespace Lexeme

/-! ## Numbers and words -/

theorem digitsWidth_cutoff (hwidth : digitsWidth (front ++ back) ≤ front.length) :
    digitsWidth (front ++ back) = digitsWidth front :=
  congrArg List.length (takeWhile_cutoff hwidth)

theorem fractionWidth_cutoff (hwidth : fractionWidth (front ++ back) ≤ front.length) :
    fractionWidth (front ++ back) = fractionWidth front := by
  obtain _ | ⟨c, _ | ⟨d, front⟩⟩ := front
  · exact Nat.eq_zero_of_le_zero hwidth
  · have hnone : fractionWidth [c] = 0 := by simp [fractionWidth]
    rw [hnone]
    unfold fractionWidth at hwidth ⊢
    split
    · split
      next hdigit => simp_all
      next => rfl
    · rfl
  · by_cases hpoint : c = '.'
    · subst hpoint
      simp only [List.cons_append, fractionWidth, List.length_cons] at hwidth ⊢
      split at hwidth
      next hdigit => rw [if_pos hdigit, if_pos hdigit, digitsWidth_cutoff (by omega)]
      next hdigit => rw [if_neg hdigit, if_neg hdigit]
    · simp [fractionWidth, hpoint]

theorem exponentWidth_cutoff (hwidth : exponentWidth (front ++ back) ≤ front.length) :
    exponentWidth (front ++ back) = exponentWidth front := by
  obtain _ | ⟨mark, _ | ⟨c, front⟩⟩ := front
  · exact Nat.eq_zero_of_le_zero hwidth
  · have hnone : exponentWidth [mark] = 0 := rfl
    rw [hnone]
    rw [List.singleton_append, List.length_singleton] at hwidth
    rw [List.singleton_append]
    unfold exponentWidth at hwidth ⊢
    split
    · dsimp only at hwidth ⊢
      repeat' split at hwidth
      all_goals first | omega | simp_all
    · rfl
  · simp only [List.cons_append, exponentWidth, List.length_cons] at hwidth ⊢
    split at hwidth
    next hmark =>
      rw [if_pos hmark, if_pos hmark]
      split at hwidth
      next hdigit => rw [if_pos hdigit, if_pos hdigit, digitsWidth_cutoff (by omega)]
      next hdigit =>
        rw [if_neg hdigit, if_neg hdigit]
        split at hwidth
        next hsign =>
          have hdigits : digitsWidth (front ++ back) ≤ front.length := by
            split at hwidth <;> omega
          rw [digitsWidth_cutoff hdigits]
        next hsign => rw [if_neg hsign, if_neg hsign]
    next hmark => rw [if_neg hmark, if_neg hmark]

theorem unitWidth_cutoff (hwidth : unitWidth (front ++ back) ≤ front.length) :
    unitWidth (front ++ back) = unitWidth front := by
  have hunit {c : Char} (hpercent : c ≠ '%') (rest : List Char) :
      unitWidth (c :: rest) = ((c :: rest).takeWhile Text.isAlphabetic).length := by
    simp [unitWidth, hpercent]
  cases front with
  | nil => exact Nat.eq_zero_of_le_zero hwidth
  | cons c front =>
      by_cases hpercent : c = '%'
      · subst hpercent
        rfl
      · rw [List.cons_append, hunit hpercent] at hwidth ⊢
        rw [hunit hpercent]
        exact congrArg List.length (@takeWhile_cutoff (c :: front) back _ hwidth)

theorem numberWidth_cutoff (hwidth : numberWidth (front ++ back) ≤ front.length) :
    numberWidth (front ++ back) = numberWidth front := by
  -- Each part ends in front of the cut, so that the next one starts at the same character.
  unfold numberWidth at hwidth ⊢
  dsimp only at hwidth ⊢
  have hdigits : digitsWidth (front ++ back) ≤ front.length := by omega
  rw [List.drop_append_of_le_length hdigits] at hwidth ⊢
  rw [← digitsWidth_cutoff hdigits]
  have hlength := List.length_drop (i := digitsWidth (front ++ back)) (l := front)
  generalize digitsWidth (front ++ back) = digits at *
  generalize front.drop digits = tail at *
  have hfraction : fractionWidth (tail ++ back) ≤ tail.length := by omega
  rw [List.drop_append_of_le_length hfraction] at hwidth ⊢
  rw [← fractionWidth_cutoff hfraction]
  have hlength := List.length_drop (i := fractionWidth (tail ++ back)) (l := tail)
  generalize fractionWidth (tail ++ back) = fraction at *
  generalize tail.drop fraction = tail at *
  have hexponent : exponentWidth (tail ++ back) ≤ tail.length := by omega
  rw [List.drop_append_of_le_length hexponent] at hwidth ⊢
  rw [← exponentWidth_cutoff hexponent]
  have hlength := List.length_drop (i := exponentWidth (tail ++ back)) (l := tail)
  generalize exponentWidth (tail ++ back) = exponent at *
  generalize tail.drop exponent = tail at *
  rw [unitWidth_cutoff (by omega)]

theorem name_cutoff {c : Char} (hwidth : (name c (front ++ back)).width ≤ front.length + 1) :
    name c (front ++ back) = name c front := by
  have hword : ((front ++ back).takeWhile isNamePart).length ≤ front.length := by
    simpa [name, plain] using hwidth
  rw [name, name, takeWhile_cutoff hword]

/-! ## Symbols -/

theorem isPrefixOf_cutoff {spelling : List Char} (hlength : spelling.length ≤ front.length) :
    spelling.isPrefixOf (front ++ back) = spelling.isPrefixOf front := by
  induction spelling generalizing front with
  | nil => rfl
  | cons c spelling ih =>
      cases front with
      | nil => exact absurd hlength (Nat.not_succ_le_zero _)
      | cons d front =>
          rw [List.cons_append, List.isPrefixOf_cons_cons, List.isPrefixOf_cons_cons,
            ih (Nat.le_of_succ_le_succ hlength)]

/-- What does not follow in a text does not follow if the text is cut off either. -/
theorem isPrefixOf_of_cutoff {spelling : List Char}
    (hno : spelling.isPrefixOf (front ++ back) = false) : spelling.isPrefixOf front = false := by
  refine eq_false_of_ne_true fun hfollows => ?_
  rw [List.isPrefixOf_iff_prefix] at hfollows
  have hlonger := List.isPrefixOf_iff_prefix.mpr (hfollows.trans (List.prefix_append front back))
  rw [hno] at hlonger
  contradiction

/-- Of two symbols the longer one is found if what follows the first character makes it up. -/
theorem longer_cutoff {spelling : List Char} {long short short' : Lexeme}
    (hlong : spelling.length < long.width)
    (hwidth : (if spelling.isPrefixOf (front ++ back) then long else short).width ≤
      front.length + 1)
    (hshort : short.width ≤ front.length + 1 → short = short') :
    (if spelling.isPrefixOf (front ++ back) then long else short) =
      if spelling.isPrefixOf front then long else short' := by
  cases hfollows : spelling.isPrefixOf (front ++ back) with
  | true =>
      rw [hfollows, if_pos rfl] at hwidth
      rw [← @isPrefixOf_cutoff front back spelling (by omega), hfollows]
      rfl
  | false =>
      rw [hfollows, if_neg Bool.false_ne_true] at hwidth
      rw [isPrefixOf_of_cutoff hfollows]
      exact hshort hwidth

theorem only_cutoff {spelling : List Char} {long : Lexeme} (hlong : spelling.length < long.width)
    (hwidth : ∀ lexeme, (if spelling.isPrefixOf (front ++ back) then some long else none) =
      some lexeme → lexeme.width ≤ front.length + 1) :
    (if spelling.isPrefixOf (front ++ back) then some long else none) =
      if spelling.isPrefixOf front then some long else none := by
  cases hfollows : spelling.isPrefixOf (front ++ back) with
  | true =>
      have hle := hwidth long (if_pos hfollows)
      rw [← @isPrefixOf_cutoff front back spelling (by omega), hfollows]
  | false => rw [isPrefixOf_of_cutoff hfollows]

theorem symbol?_cutoff {c : Char}
    (hwidth : ∀ lexeme, symbol? c (front ++ back) = some lexeme → lexeme.width ≤ front.length + 1) :
    symbol? c (front ++ back) = symbol? c front := by
  unfold symbol? at hwidth ⊢
  dsimp only at hwidth ⊢
  split
  case h_15 | h_18 | h_19 | h_23 =>
    exact congrArg some (longer_cutoff (by decide) (hwidth _ rfl) fun _ => rfl)
  case h_17 | h_22 | h_24 =>
    exact congrArg some (longer_cutoff (by decide) (hwidth _ rfl) fun hle =>
      longer_cutoff (by decide) hle fun _ => rfl)
  case h_16 =>
    exact congrArg some (longer_cutoff (by decide) (hwidth _ rfl) fun hle =>
      longer_cutoff (by decide) hle fun hle => longer_cutoff (by decide) hle fun _ => rfl)
  case h_20 | h_21 => exact only_cutoff (by decide) hwidth
  all_goals rfl

/-! ## Quoted texts and interpolations -/

theorem width_quoted_pos {c : Char} (hbreak : c ≠ '\n') (quote : Char) (rest : List Char) :
    0 < (quoted quote (c :: rest)).width := by
  rw [quoted.eq_def]
  dsimp only
  rw [if_neg hbreak]
  repeat' split
  all_goals exact Nat.succ_pos _

theorem quoted_cutoff {quote : Char}
    (hwidth : (quoted quote (front ++ back)).width ≤ front.length) :
    quoted quote (front ++ back) = quoted quote front := by
  induction front using quoted.induct quote with
  | case1 =>
      obtain _ | ⟨c, back⟩ := back
      · rfl
      by_cases hbreak : c = '\n'
      · subst hbreak
        exact quoted_break quote back
      · have hpositive := width_quoted_pos hbreak quote back
        exact absurd (Nat.lt_of_lt_of_le hpositive hwidth) (Nat.lt_irrefl 0)
  | case2 rest => rw [List.cons_append, quoted_break, quoted_break]
  | case3 rest hbreak => rw [List.cons_append, quoted_quote hbreak, quoted_quote hbreak]
  | case4 hbreak hquote =>
      obtain _ | ⟨c, back⟩ := back
      · rw [List.append_nil]
      by_cases hc : c = '\n'
      · subst hc
        rw [List.singleton_append, quoted_escape_break hquote, quoted.eq_def]
        dsimp only
        rw [if_neg hbreak, if_neg hquote, if_pos rfl]
      · rw [List.singleton_append, quoted_escape hquote hc] at hwidth
        simp at hwidth
  | case5 rest _ hquote =>
      rw [List.cons_append, List.cons_append, quoted_escape_break hquote,
        quoted_escape_break hquote]
  | case6 c rest hbreak _ hquote ih =>
      rw [List.cons_append, List.cons_append, quoted_escape hquote hbreak] at hwidth ⊢
      rw [quoted_escape hquote hbreak, ih (by simpa using hwidth)]
  | case7 c rest hbreak hquote hescape ih =>
      rw [List.cons_append, quoted_char hbreak hquote hescape] at hwidth ⊢
      rw [quoted_char hbreak hquote hescape, ih (by simpa using hwidth)]

theorem interpolation_cutoff {depth : Nat}
    (hwidth : (interpolation depth (front ++ back)).width ≤ front.length) :
    interpolation depth (front ++ back) = interpolation depth front := by
  induction front generalizing depth with
  | nil =>
      cases back with
      | nil => rfl
      | cons c back =>
          rw [List.nil_append, interpolation] at hwidth
          split at hwidth <;> exact absurd hwidth (Nat.not_succ_le_zero _)
  | cons c front ih =>
      rw [List.cons_append, interpolation] at hwidth ⊢
      rw [interpolation]
      by_cases hend : c = '\x7d' ∧ depth ≤ 1
      · rw [if_pos hend, if_pos hend]
      · rw [if_neg hend] at hwidth
        rw [if_neg hend, if_neg hend]
        dsimp only
        rw [ih (Nat.le_of_succ_le_succ hwidth)]

/-! ## Lexemes -/

theorem numberWidth_pos {c : Char} (hdigit : c.isDigit = true) (rest : List Char) :
    0 < numberWidth (c :: rest) := by
  have hdigits : digitsWidth (c :: rest) = digitsWidth rest + 1 := by
    rw [digitsWidth, List.takeWhile_cons_of_pos hdigit]
    rfl
  unfold numberWidth
  dsimp only
  omega

/-- A text that goes on with something does so as well if it is cut off further on. -/
theorem head_cutoff (hfront : front ≠ []) : (front ++ back).head? = front.head? := by
  cases front with
  | nil => contradiction
  | cons => rfl

theorem scan_cutoff {afterValue : Bool} {c : Char}
    (hwidth : ∀ lexeme, scan afterValue c (front ++ back) = some lexeme →
      lexeme.width ≤ front.length + 1) :
    scan afterValue c (front ++ back) = scan afterValue c front := by
  unfold scan at hwidth ⊢
  dsimp only at hwidth ⊢
  -- Where a lexeme depends on the character behind the first one, it takes it up.
  split
  next hsign =>
    have hle := hwidth _ (if_pos hsign)
    have hfront : front ≠ [] := by
      rintro rfl
      obtain _ | ⟨d, back⟩ := back
      · simp at hsign
      · have hpositive := numberWidth_pos (c := d) (by simpa using hsign.2.1) back
        simp only [plain, List.nil_append, List.length_nil] at hle
        omega
    rw [head_cutoff hfront] at hsign
    rw [if_pos hsign, numberWidth_cutoff (by simpa [plain] using hle)]
  next hsign =>
  have hsign' : ¬(c = '-' ∧ ((front.head?.map Char.isDigit).getD false) = true ∧
      (!afterValue) = true) := by
    obtain _ | ⟨d, front⟩ := front
    · simp
    · exact hsign
  rw [if_neg hsign']
  simp only [if_neg hsign] at hwidth
  split
  next hquote =>
    have hle := hwidth _ (if_pos hquote)
    rw [quoted_cutoff (by split at hle <;> simpa using hle)]
  next hquote =>
  simp only [if_neg hquote] at hwidth
  split
  next hopen =>
    have hle := hwidth _ (if_pos hopen)
    obtain _ | ⟨d, front⟩ := front
    · simp at hle
    · rw [if_pos (show c = '$' ∧ (d :: front).head? = some '\x7b' from hopen)]
      simp only [List.cons_append, List.tail_cons] at hle ⊢
      rw [interpolation_cutoff (by simpa using hle)]
  next hopen =>
  have hopen' : ¬(c = '$' ∧ front.head? = some '\x7b') := by
    obtain _ | ⟨d, front⟩ := front
    · simp
    · exact hopen
  rw [if_neg hopen']
  simp only [if_neg hopen] at hwidth
  split
  next hdigit =>
    have hle := hwidth _ (if_pos hdigit)
    have hnumber := @numberWidth_cutoff (c :: front) back (by simpa [plain] using hle)
    rw [← hnumber, List.cons_append]
  next hdigit =>
  simp only [if_neg hdigit] at hwidth
  split
  next hname =>
    have hle := hwidth _ (if_pos hname)
    rw [name_cutoff hle]
  next hname =>
  simp only [if_neg hname] at hwidth
  exact symbol?_cutoff hwidth

/-! ## Trivia -/

theorem blockWidth_cutoff (hwidth : blockWidth (front ++ back) ≤ front.length) :
    blockWidth (front ++ back) = blockWidth front := by
  induction front with
  | nil => exact Nat.eq_zero_of_le_zero hwidth
  | cons c front ih =>
      by_cases hend : c = '*' ∧ front.head? = some '/'
      · obtain ⟨rfl, hfront⟩ := hend
        obtain ⟨others, rfl⟩ := List.head?_eq_some_iff.mp hfront
        rfl
      · have hend' : ¬(c = '*' ∧ (front ++ back).head? = some '/') := by
          rintro ⟨rfl, hhead⟩
          obtain _ | ⟨d, front⟩ := front
          · obtain ⟨others, rfl⟩ := List.head?_eq_some_iff.mp hhead
            exact absurd hwidth (by simp [blockWidth])
          · exact hend ⟨rfl, hhead⟩
        rw [List.cons_append, blockWidth_cons hend'] at hwidth ⊢
        rw [blockWidth_cons hend, ih (Nat.le_of_succ_le_succ hwidth)]

theorem lineWidth_cutoff (hwidth : lineWidth (front ++ back) ≤ front.length) :
    lineWidth (front ++ back) = lineWidth front :=
  congrArg List.length (takeWhile_cutoff hwidth)

/-- A comment or a blank in front of other characters; one that is none must not become one. -/
theorem triviaWidth_cutoff {lineHasToken : Bool} {c : Char}
    (hwidth : triviaWidth lineHasToken (c :: (front ++ back)) ≤ front.length)
    (hhash : c = '#' → front ≠ []) :
    triviaWidth lineHasToken (c :: (front ++ back)) = triviaWidth lineHasToken (c :: front) := by
  obtain _ | ⟨d, front⟩ := front
  · have hmark : c ≠ '#' := fun hc => hhash hc rfl
    have hnone := Nat.eq_zero_of_le_zero hwidth
    rw [List.nil_append] at hnone ⊢
    rw [hnone, triviaWidth_cons]
    rw [triviaWidth_cons, if_neg hmark] at hnone
    have hblank : isInlineBlank c = false := by
      refine eq_false_of_ne_true fun hblank => ?_
      repeat' split at hnone
      all_goals omega
    simp [hmark, hblank]
  · have hname (rest : List Char) : marksName (d :: rest) = isNameStart d := rfl
    rw [triviaWidth_cons] at hwidth ⊢
    rw [triviaWidth_cons]
    simp only [List.cons_append, List.head?_cons, List.tail_cons, List.length_cons, hname]
      at hwidth ⊢
    split
    next hline =>
      rw [if_pos hline] at hwidth
      rw [lineWidth_cutoff (by omega)]
    next hline =>
    rw [if_neg hline] at hwidth
    split
    next hblock =>
      rw [if_pos hblock] at hwidth
      rw [blockWidth_cutoff (by omega)]
    next hblock =>
    rw [if_neg hblock] at hwidth
    split
    next hmark =>
      rw [if_pos hmark] at hwidth
      split
      next => rfl
      next hother =>
        rw [if_neg hother] at hwidth
        exact congrArg (· + 1) (@lineWidth_cutoff (d :: front) back (Nat.le_of_succ_le hwidth))
    next => rfl

end Lexeme

namespace Scanner

/-- The blanks and comments at the head of a line, in front of something else. -/
theorem lineHead_cutoff (hwidth : (lineHead (front ++ back)).1 < front.length) :
    (lineHead (front ++ back)).1 = (lineHead front).1 := by
  have hblanks : ((front ++ back).takeWhile Lexeme.isInlineBlank).length < front.length := by
    refine Nat.lt_of_le_of_lt ?_ hwidth
    unfold lineHead
    dsimp only
    split
    all_goals omega
  have hsame := takeWhile_cutoff (Nat.le_of_lt hblanks)
  unfold lineHead at hwidth ⊢
  rw [hsame] at hwidth hblanks ⊢
  dsimp only at hwidth ⊢
  rw [List.drop_append_of_le_length (Nat.le_of_lt hblanks)] at hwidth ⊢
  have hlength := List.length_drop (i := (front.takeWhile Lexeme.isInlineBlank).length) (l := front)
  generalize (front.takeWhile Lexeme.isInlineBlank).length = blanks at *
  generalize front.drop blanks = tail at *
  obtain _ | ⟨c, tail⟩ := tail
  · rw [List.length_nil] at hlength
    omega
  by_cases hbreak : c = '\n'
  · subst hbreak
    rfl
  by_cases hhash : c = '#'
  · subst hhash
    simp only [List.cons_append, List.length_cons] at hwidth hlength ⊢
    rw [Lexeme.lineWidth_cutoff (by omega)]
  by_cases hslash : c = '/'
  · subst hslash
    obtain _ | ⟨d, tail⟩ := tail
    · rw [List.length_singleton] at hlength
      obtain _ | ⟨d, back⟩ := back
      · rfl
      by_cases hline : d = '/'
      · subst hline
        simp only [List.singleton_append] at hwidth
        omega
      by_cases hblock : d = '*'
      · subst hblock
        simp only [List.singleton_append] at hwidth
        omega
      · simp [hline, hblock]
    by_cases hline : d = '/'
    · subst hline
      simp only [List.cons_append, List.length_cons] at hwidth hlength ⊢
      rw [Lexeme.lineWidth_cutoff (by omega)]
    by_cases hblock : d = '*'
    · subst hblock
      simp only [List.cons_append, List.length_cons] at hwidth hlength ⊢
      have hinside : Lexeme.blockWidth (tail ++ back) ≤ tail.length := by omega
      rw [← Lexeme.blockWidth_cutoff hinside]
      rw [List.drop_append_of_le_length hinside] at hwidth ⊢
      have hrest := List.length_drop (i := Lexeme.blockWidth (tail ++ back)) (l := tail)
      generalize Lexeme.blockWidth (tail ++ back) = width at *
      generalize tail.drop width = tail at *
      rw [takeWhile_cutoff (by omega)]
    · simp [hline, hblock]
  · simp [hbreak, hhash, hslash]

end Scanner
end SceneLang
