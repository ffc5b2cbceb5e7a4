import Mathlib.Data.List.Nodup
import Mathlib.Order.Bounds.Defs
import SceneLang.Diagnostic.Advice

/-!
# The words that are suggested

A word is turned into another one by edits, each of which inserts, deletes or substitutes one
character.  The least number of edits obeys a recursion on the first characters of both words.  The
table of distances is worked out from the front of the words, so that a row of it holds the values
of the recursion for the beginnings of the words, read backwards.  Reading words backwards does not
change how many edits it takes.

The entries of a vocabulary that are close enough to a word are ranked by their distance from it,
and at the same distance by their place in the vocabulary.  What is suggested is the top of this
ranking.  An entry goes with its place, since a vocabulary may hold a word more than once.
-/

namespace SceneLang

/-! ## Edits -/

/-- One character is inserted, deleted or substituted. -/
inductive Edit : List Char → List Char → Prop where
  | insert (front back : List Char) (c : Char) : Edit (front ++ back) (front ++ c :: back)
  | delete (front back : List Char) (c : Char) : Edit (front ++ c :: back) (front ++ back)
  | substitute (front back : List Char) (c d : Char) :
      Edit (front ++ c :: back) (front ++ d :: back)

/-- So many edits turn the first text into the second one. -/
inductive Edits (start : List Char) : Nat → List Char → Prop where
  | refl : Edits start 0 start
  | tail {count : Nat} {middle last : List Char} (h : Edits start count middle)
      (h' : Edit middle last) : Edits start (count + 1) last

section

variable {a b c : List Char} {m n : Nat}

theorem Edit.symm (h : Edit a b) : Edit b a := by
  cases h with
  | insert front back c => exact .delete front back c
  | delete front back c => exact .insert front back c
  | substitute front back c d => exact .substitute front back d c

theorem Edit.reverse (h : Edit a b) : Edit a.reverse b.reverse := by
  cases h with
  | insert front back c => simpa using Edit.insert back.reverse front.reverse c
  | delete front back c => simpa using Edit.delete back.reverse front.reverse c
  | substitute front back c d => simpa using Edit.substitute back.reverse front.reverse c d

/-- What is in front of both texts does not matter. -/
theorem Edit.cons (x : Char) (h : Edit a b) : Edit (x :: a) (x :: b) := by
  cases h with
  | insert front back c => exact .insert (x :: front) back c
  | delete front back c => exact .delete (x :: front) back c
  | substitute front back c d => exact .substitute (x :: front) back c d

namespace Edits

theorem trans (h : Edits a m b) (h' : Edits b n c) : Edits a (m + n) c := by
  induction h' with
  | refl => exact h
  | tail _ hlast ih => exact .tail ih hlast

theorem single (h : Edit a b) : Edits a 1 b :=
  .tail .refl h

theorem symm (h : Edits a n b) : Edits b n a := by
  induction h with
  | refl => exact .refl
  | @tail count _ _ _ hlast ih =>
      rw [Nat.add_comm]
      exact (single hlast.symm).trans ih

theorem reverse (h : Edits a n b) : Edits a.reverse n b.reverse := by
  induction h with
  | refl => exact .refl
  | tail _ hlast ih => exact .tail ih hlast.reverse

theorem reverse_iff : Edits a.reverse n b.reverse ↔ Edits a n b := by
  constructor
  · intro h
    simpa using h.reverse
  · exact reverse

theorem cons (x : Char) (h : Edits a n b) : Edits (x :: a) n (x :: b) := by
  induction h with
  | refl => exact .refl
  | tail _ hlast ih => exact .tail ih (hlast.cons x)

theorem insert (x : Char) (h : Edits a n b) : Edits a (n + 1) (x :: b) :=
  .tail h (.insert [] b x)

theorem delete (x : Char) (h : Edits a n b) : Edits (x :: a) (n + 1) b :=
  (h.symm.insert x).symm

theorem substitute (x y : Char) (h : Edits a n b) : Edits (x :: a) (n + 1) (y :: b) :=
  .tail (h.cons x) (.substitute [] b x y)

end Edits

end

/-! ## The recursion -/

/-- The cheapest way to match two texts, from their first characters on: these are matched with each
other, or one of them is left out. -/
def matchingCost : List Char → List Char → Nat
  | [], b => b.length
  | a, [] => a.length
  | c :: a, d :: b =>
      min (min (matchingCost a b + if c = d then 0 else 1) (matchingCost a (d :: b) + 1))
        (matchingCost (c :: a) b + 1)

@[simp] theorem matchingCost_nil_left (b : List Char) : matchingCost [] b = b.length := by
  rw [matchingCost]

@[simp] theorem matchingCost_nil_right (a : List Char) : matchingCost a [] = a.length := by
  cases a <;> simp [matchingCost]

theorem matchingCost_cons (c d : Char) (a b : List Char) :
    matchingCost (c :: a) (d :: b) =
      min (min (matchingCost a b + if c = d then 0 else 1) (matchingCost a (d :: b) + 1))
        (matchingCost (c :: a) b + 1) := by
  rw [matchingCost]

theorem matchingCost_self (a : List Char) : matchingCost a a = 0 := by
  induction a with
  | nil => simp
  | cons c a ih => simp [matchingCost_cons, ih]

/-- A matching is an instruction for edits. -/
theorem edits_matchingCost (a b : List Char) : Edits a (matchingCost a b) b := by
  induction a generalizing b with
  | nil =>
      rw [matchingCost_nil_left]
      induction b with
      | nil => exact .refl
      | cons d b ih => exact ih.insert d
  | cons c a iha =>
      induction b with
      | nil =>
          have hrest := iha []
          rw [matchingCost_nil_right] at hrest ⊢
          exact hrest.delete c
      | cons d b ihb =>
          have hmatched : Edits (c :: a) (matchingCost a b + if c = d then 0 else 1) (d :: b) := by
            by_cases h : c = d
            · simpa [h] using (iha b).cons d
            · simpa [h] using (iha b).substitute c d
          rw [matchingCost_cons]
          rcases Nat.le_total (matchingCost (c :: a) b + 1)
            (min (matchingCost a b + if c = d then 0 else 1) (matchingCost a (d :: b) + 1))
            with hleft | hleft
          · rw [Nat.min_eq_right hleft]
            exact ihb.insert d
          · rw [Nat.min_eq_left hleft]
            rcases Nat.le_total (matchingCost a b + if c = d then 0 else 1)
              (matchingCost a (d :: b) + 1) with habove | habove
            · rw [Nat.min_eq_left habove]
              exact hmatched
            · rw [Nat.min_eq_right habove]
              exact (iha (d :: b)).delete c

/-! ## No edit saves more than one -/

/-- From wherever one starts, it takes at most one edit more to get to the second text. -/
def OneFurther (b b' : List Char) : Prop :=
  ∀ a, matchingCost a b' ≤ matchingCost a b + 1

theorem matchingCost_cons_left_le (c : Char) (a b : List Char) :
    matchingCost (c :: a) b ≤ matchingCost a b + 1 := by
  cases b with
  | nil => simp
  | cons d b =>
      rw [matchingCost_cons]
      omega

theorem oneFurther_insert (b : List Char) (d : Char) : OneFurther b (d :: b) := by
  intro a
  cases a with
  | nil => simp
  | cons c a =>
      rw [matchingCost_cons]
      omega

theorem oneFurther_delete (b : List Char) (d : Char) : OneFurther (d :: b) b := by
  intro a
  induction a with
  | nil =>
      rw [matchingCost_nil_left, matchingCost_nil_left, List.length_cons]
      omega
  | cons c a ih =>
      have hleft := matchingCost_cons_left_le c a b
      rw [matchingCost_cons]
      omega

theorem oneFurther_substitute (b : List Char) (d d' : Char) : OneFurther (d :: b) (d' :: b) := by
  intro a
  induction a with
  | nil => simp
  | cons c a ih =>
      rw [matchingCost_cons, matchingCost_cons]
      split <;> split <;> omega

theorem OneFurther.cons {b b' : List Char} (h : OneFurther b b') (d : Char) :
    OneFurther (d :: b) (d :: b') := by
  intro a
  induction a with
  | nil => simpa using h []
  | cons c a ih =>
      have hmatched := h a
      have hleft := h (c :: a)
      rw [matchingCost_cons, matchingCost_cons]
      omega

theorem OneFurther.append {b b' : List Char} (h : OneFurther b b') (front : List Char) :
    OneFurther (front ++ b) (front ++ b') := by
  induction front with
  | nil => exact h
  | cons d front ih => exact ih.cons d

theorem Edit.oneFurther {b b' : List Char} (h : Edit b b') : OneFurther b b' := by
  cases h with
  | insert front back c => exact (oneFurther_insert back c).append front
  | delete front back c => exact (oneFurther_delete back c).append front
  | substitute front back c d => exact (oneFurther_substitute back c d).append front

theorem Edits.matchingCost_le {a b : List Char} {n : Nat} (h : Edits a n b) :
    matchingCost a b ≤ n := by
  induction h with
  | refl => simp [matchingCost_self]
  | tail _ hlast ih =>
      have hstep := hlast.oneFurther a
      omega

theorem isLeast_matchingCost (a b : List Char) :
    IsLeast {n | Edits a n b} (matchingCost a b) :=
  ⟨edits_matchingCost a b, fun _ h => h.matchingCost_le⟩

/-- It does not matter from which side the texts are matched. -/
theorem matchingCost_reverse (a b : List Char) :
    matchingCost a.reverse b.reverse = matchingCost a b := by
  apply Nat.le_antisymm
  · exact (edits_matchingCost a b).reverse.matchingCost_le
  · exact (Edits.reverse_iff.mp (edits_matchingCost a.reverse b.reverse)).matchingCost_le

/-! ## The table -/

/-- What it costs to match `a` with `front`, and with what `front` becomes when the characters of a
text are put in front of it one after another. -/
def costsFrom (a front : List Char) : List Char → List Nat
  | [] => [matchingCost a front]
  | d :: b => matchingCost a front :: costsFrom a (d :: front) b

theorem costsFrom_eq_cons (a front b : List Char) :
    costsFrom a front b = matchingCost a front :: (costsFrom a front b).tail := by
  cases b <;> rfl

/-- A row of the table for the beginning of a word is worked out from the row for the beginning that
is one character shorter.  The beginnings are read backwards, so that it is the first character of
`c :: a` that is new. -/
theorem distanceRow_costsFrom (c : Char) (a front b : List Char) :
    distanceRow c (matchingCost (c :: a) front) b (costsFrom a front b) =
      (costsFrom (c :: a) front b).tail := by
  induction b generalizing front with
  | nil => rfl
  | cons d b ih =>
      have hrest := ih (d :: front)
      rw [costsFrom_eq_cons a (d :: front) b] at hrest
      rw [costsFrom, costsFrom_eq_cons a (d :: front) b, distanceRow, ← matchingCost_cons, hrest,
        costsFrom, List.tail_cons, ← costsFrom_eq_cons]

theorem nextDistanceRow_costsFrom (c : Char) (a b : List Char) :
    nextDistanceRow b (costsFrom a [] b) c = costsFrom (c :: a) [] b := by
  have hfirst : (costsFrom a [] b).headD 0 + 1 = matchingCost (c :: a) [] := by
    rw [costsFrom_eq_cons]
    simp
  rw [nextDistanceRow, hfirst, distanceRow_costsFrom, ← costsFrom_eq_cons]

theorem foldl_nextDistanceRow (a before b : List Char) :
    a.foldl (nextDistanceRow b) (costsFrom before [] b) =
      costsFrom (a.reverse ++ before) [] b := by
  induction a generalizing before with
  | nil => rfl
  | cons c a ih => simp [nextDistanceRow_costsFrom, ih]

/-- The first row counts insertions. -/
theorem costsFrom_nil (front b : List Char) :
    costsFrom [] front b = List.range' front.length (b.length + 1) := by
  induction b generalizing front with
  | nil => simp [costsFrom]
  | cons d b ih => simp [costsFrom, ih, List.range'_succ]

theorem getLastD_costsFrom (a front b : List Char) (other : Nat) :
    (costsFrom a front b).getLastD other = matchingCost a (b.reverse ++ front) := by
  induction b generalizing front other with
  | nil => rfl
  | cons d b ih =>
      rw [costsFrom, List.getLastD_cons, ih, List.reverse_cons, List.append_assoc,
        List.singleton_append]

theorem editDistance_eq (a b : List Char) : editDistance a b = matchingCost a b := by
  have hfirst : List.range (b.length + 1) = costsFrom [] [] b := by
    rw [costsFrom_nil, List.range_eq_range', List.length_nil]
  calc
    editDistance a b = (costsFrom a.reverse [] b).getLastD 0 := by
      rw [editDistance, hfirst, foldl_nextDistanceRow, List.append_nil]
    _ = matchingCost a.reverse b.reverse := by
      rw [getLastD_costsFrom, List.append_nil]
    _ = matchingCost a b := matchingCost_reverse a b

/-- The entry that is read off the table at its end is the least number of characters to insert, to
delete or to substitute in order to get from one word to the other, and obeys the recursion.  It is a
metric: it does not change if the words are exchanged, it is zero for equal words alone, and a detour
is never shorter. -/
theorem editDistance_isLeast (a b : List Char) :
    IsLeast {n | Edits a n b} (editDistance a b) ∧
      editDistance a b = matchingCost a b ∧
      editDistance b a = editDistance a b ∧
      (editDistance a b = 0 ↔ a = b) ∧
      ∀ c, editDistance a c ≤ editDistance a b + editDistance b c := by
  simp only [editDistance_eq, true_and]
  refine ⟨isLeast_matchingCost a b, ?_, ?_, ?_⟩
  · apply Nat.le_antisymm
    · exact (edits_matchingCost a b).symm.matchingCost_le
    · exact (edits_matchingCost b a).symm.matchingCost_le
  · constructor
    · intro hzero
      have hedits := edits_matchingCost a b
      rw [hzero] at hedits
      cases hedits
      rfl
    · rintro rfl
      exact matchingCost_self a
  · intro c
    exact ((edits_matchingCost a b).trans (edits_matchingCost b c)).matchingCost_le

example : editDistance "kitten".toList "sitting".toList = 3 := by decide

/-! ## Sorting that keeps the order of ties -/

section

variable {α : Type} (key rank : α → Nat)

/-- The order that compares places where the keys are the same, for entries in different places. -/
theorem key_lt_or_place_lt {a b : α} {i j : Nat} (hne : i ≠ j)
    (hle : List.zipIdxLE (fun a b => decide (key a ≤ key b)) (a, i) (b, j) = true) :
    key a < key b ∨ key a = key b ∧ i < j := by
  simp only [List.zipIdxLE, decide_eq_true_eq] at hle
  split at hle
  next hkey =>
    split at hle
    next hkey' =>
      exact .inr ⟨Nat.le_antisymm hkey hkey', Nat.lt_of_le_of_ne (of_decide_eq_true hle) hne⟩
    next hkey' => exact .inl (Nat.lt_of_not_le hkey')
  next => contradiction

/-- Entries in the order of their ranks are sorted by a key: of two entries with the same key the
one of lower rank stays in front. -/
theorem pairwise_mergeSort_key {entries : List α}
    (hranked : entries.Pairwise fun a b => rank a < rank b) :
    (entries.mergeSort fun a b => key a ≤ key b).Pairwise fun a b =>
      key a < key b ∨ key a = key b ∧ rank a < rank b := by
  let le : α → α → Bool := fun a b => key a ≤ key b
  have htrans (a b c : α) (hab : le a b = true) (hbc : le b c = true) : le a c = true :=
    decide_eq_true (Nat.le_trans (of_decide_eq_true hab) (of_decide_eq_true hbc))
  have htotal (a b : α) : (le a b || le b a) = true := by
    simp only [le, Bool.or_eq_true, decide_eq_true_eq]
    exact Nat.le_total _ _
  -- The library has the sort compare the places of the entries too, where their keys are the same.
  let placed := entries.zipIdx.mergeSort (List.zipIdxLE le)
  have hperm : placed.Perm entries.zipIdx := List.mergeSort_perm _ _
  have hsorted : placed.Pairwise fun a b => List.zipIdxLE le a b = true :=
    List.pairwise_mergeSort (List.zipIdxLE_trans htrans) (List.zipIdxLE_total htotal) _
  have hnodup : placed.Nodup := by
    refine hperm.nodup_iff.mpr (List.Nodup.of_map Prod.snd ?_)
    rw [List.zipIdx_map_snd]
    exact List.nodup_range'
  have hplaced : placed.map (·.1) = entries.mergeSort le := List.mergeSort_zipIdx
  change (entries.mergeSort le).Pairwise _
  rw [← hplaced, List.pairwise_map]
  refine (hsorted.and hnodup).imp_of_mem ?_
  rintro ⟨a, i⟩ ⟨b, j⟩ ha hb ⟨hle, hne⟩
  obtain ⟨hi, ha⟩ := List.mem_zipIdx' (hperm.mem_iff.mp ha)
  obtain ⟨hj, hb⟩ := List.mem_zipIdx' (hperm.mem_iff.mp hb)
  have hplace : i ≠ j := by
    rintro rfl
    exact hne (congrArg (·, i) (ha.trans hb.symm))
  obtain hkey | ⟨hkey, hlt⟩ := key_lt_or_place_lt key hplace hle
  · exact .inl hkey
  · have hrank := List.pairwise_iff_getElem.mp hranked i j hi hj hlt
    rw [← ha, ← hb] at hrank
    exact .inr ⟨hkey, hrank⟩

end

/-! ## The ranking -/

/-- The distance of two words if case does not count. -/
def wordDistance (word other : String) : Nat :=
  editDistance (Text.lower word.toList) (Text.lower other.toList)

/-- A word that may be suggested instead. -/
def Eligible (word : String) (maxDistance : Nat) (other : String) : Prop :=
  other ≠ word ∧ wordDistance word other ≤ maxDistance

instance (word : String) (maxDistance : Nat) : DecidablePred (Eligible word maxDistance) :=
  fun _ => inferInstanceAs (Decidable (_ ∧ _))

/-- Of two entries of a vocabulary with their places the first one is closer to the word, or as
close and further ahead. -/
def Precedes (word : String) (entry other : String × Nat) : Prop :=
  wordDistance word entry.1 < wordDistance word other.1 ∨
    wordDistance word entry.1 = wordDistance word other.1 ∧ entry.2 < other.2

/-- These entries, with their places, are the first ones of the ranking. -/
structure IsTop (word : String) (vocabulary : List String) (maxDistance limit : Nat)
    (top : List (String × Nat)) : Prop where
  eligible : ∀ entry ∈ top, entry ∈ vocabulary.zipIdx ∧ Eligible word maxDistance entry.1
  length : top.length = min limit (vocabulary.countP (Eligible word maxDistance))
  ordered : top.Pairwise (Precedes word)
  others : ∀ other ∈ vocabulary.zipIdx, Eligible word maxDistance other.1 → other ∉ top →
    ∀ entry ∈ top, Precedes word entry other

variable (word : String) (vocabulary : List String) (maxDistance limit : Nat)

/-- What is told of an entry that is suggested. -/
def similarEntry (entry : String × Nat) : Similar :=
  ⟨entry.1, wordDistance word entry.1⟩

def eligibleEntries : List (String × Nat) :=
  vocabulary.zipIdx.filter fun entry => Eligible word maxDistance entry.1

/-- The eligible entries, closest first. -/
def ranking : List (String × Nat) :=
  (eligibleEntries word vocabulary maxDistance).mergeSort fun a b =>
    wordDistance word a.1 ≤ wordDistance word b.1

theorem mem_ranking {entry : String × Nat} : entry ∈ ranking word vocabulary maxDistance ↔
    entry ∈ vocabulary.zipIdx ∧ Eligible word maxDistance entry.1 := by
  rw [ranking, List.mem_mergeSort, eligibleEntries, List.mem_filter, decide_eq_true_iff]

theorem length_ranking : (ranking word vocabulary maxDistance).length =
    vocabulary.countP (Eligible word maxDistance) := by
  conv_rhs => rw [← List.zipIdx_map_fst 0 vocabulary]
  rw [ranking, List.length_mergeSort, eligibleEntries, ← List.countP_eq_length_filter,
    List.countP_map]
  rfl

theorem pairwise_ranking : (ranking word vocabulary maxDistance).Pairwise (Precedes word) := by
  apply pairwise_mergeSort_key (fun entry => wordDistance word entry.1) Prod.snd
  have hplaces : (vocabulary.zipIdx.map Prod.snd).Pairwise (· < ·) := by
    rw [List.zipIdx_map_snd]
    exact List.pairwise_lt_range'
  exact (List.pairwise_map.mp hplaces).filter _

/-- What is suggested is read off the ranking from its top. -/
theorem findSimilar_eq : findSimilar word vocabulary maxDistance limit =
    ((ranking word vocabulary maxDistance).take limit).map (similarEntry word) := by
  have hfound : (vocabulary.filterMap fun candidate =>
      if wordDistance word candidate ≤ maxDistance ∧ candidate ≠ word then
        some (Similar.mk candidate (wordDistance word candidate)) else none) =
      (eligibleEntries word vocabulary maxDistance).map (similarEntry word) := by
    conv_lhs => rw [← List.zipIdx_map_fst 0 vocabulary]
    rw [List.filterMap_map, eligibleEntries, ← List.filterMap_eq_map, ← List.filterMap_eq_filter,
      List.filterMap_filterMap]
    apply List.filterMap_congr
    intro entry _
    by_cases heligible : Eligible word maxDistance entry.1
    · simp [Option.guard, heligible, heligible.symm, similarEntry]
    · have hnot : ¬(wordDistance word entry.1 ≤ maxDistance ∧ entry.1 ≠ word) :=
        fun h => heligible h.symm
      simp [Option.guard, heligible, hnot]
  have hsort : ((eligibleEntries word vocabulary maxDistance).map (similarEntry word)).mergeSort
      (fun a b => a.distance ≤ b.distance) =
      (ranking word vocabulary maxDistance).map (similarEntry word) :=
    (List.map_mergeSort (f := similarEntry word) fun _ _ _ _ => rfl).symm
  calc
    findSimilar word vocabulary maxDistance limit =
        (((eligibleEntries word vocabulary maxDistance).map (similarEntry word)).mergeSort
          fun a b => a.distance ≤ b.distance).take limit := by rw [← hfound]; rfl
    _ = ((ranking word vocabulary maxDistance).take limit).map (similarEntry word) := by
      rw [hsort, List.map_take]

theorem isTop_ranking :
    IsTop word vocabulary maxDistance limit ((ranking word vocabulary maxDistance).take limit) where
  eligible entry hmem := (mem_ranking word vocabulary maxDistance).mp (List.mem_of_mem_take hmem)
  length := by rw [List.length_take, length_ranking]
  ordered := (pairwise_ranking word vocabulary maxDistance).take
  others other hmem heligible hnot entry hentry := by
    have hother : other ∈ ranking word vocabulary maxDistance :=
      (mem_ranking word vocabulary maxDistance).mpr ⟨hmem, heligible⟩
    have hpairs := pairwise_ranking word vocabulary maxDistance
    rw [← List.take_append_drop limit (ranking word vocabulary maxDistance)] at hother hpairs
    have hbehind := (List.mem_append.mp hother).resolve_left hnot
    exact (List.pairwise_append.mp hpairs).2.2 entry hentry other hbehind

/-- What is suggested for a word are the first entries of the ranking, as many as are asked for and
eligible, each with the least number of edits that lead from the word to it. -/
theorem findSimilar_isTop : ∃ top, IsTop word vocabulary maxDistance limit top ∧
    findSimilar word vocabulary maxDistance limit =
      top.map (fun entry => ⟨entry.1, wordDistance word entry.1⟩) ∧
    ∀ other, IsLeast {n | Edits (Text.lower word.toList) n (Text.lower other.toList)}
      (wordDistance word other) := by
  refine ⟨_, isTop_ranking word vocabulary maxDistance limit,
    findSimilar_eq word vocabulary maxDistance limit, fun other => ?_⟩
  rw [wordDistance, editDistance_eq]
  exact isLeast_matchingCost _ _

end SceneLang
