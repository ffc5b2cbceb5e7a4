import SceneLang.Chunk
import Mathlib.Data.List.Nodup

/-!
# The identifiers of chunks

A chunk is called by its base identifier if it is the first one of it, and else by that and the
number of those before it.  Identifiers made this way differ among themselves.  What they can be
mistaken for is a base identifier that looks like one of them, and nothing else.
-/

namespace SceneLang
namespace Chunk

/-! ## Counted base identifiers -/

/-- The identifier of a chunk with so many chunks of the same base identifier before it. -/
def numbered (base : String) (count : Nat) : String :=
  if count = 0 then base else s!"{base}~{count}"

theorem toList_numbered (base : String) {count : Nat} (h : count ≠ 0) :
    (numbered base count).toList = base.toList ++ '~' :: Nat.toDigits 10 count := by
  simp [numbered, h, toString]

theorem tilde_not_mem_digits (count : Nat) : '~' ∉ Nat.toDigits 10 count := by
  intro hmem
  have hdigit := Nat.isDigit_of_mem_toDigits (by decide) (by decide) hmem
  exact absurd hdigit (by decide)

/-- The last tilde of a numbered identifier is the one in front of the number. -/
theorem numbered_injective {base other : String} {count count' : Nat} (hcount : count ≠ 0)
    (hcount' : count' ≠ 0) (h : numbered base count = numbered other count') :
    base = other ∧ count = count' := by
  have htext := congrArg (List.reverse ∘ String.toList) h
  simp only [Function.comp_apply, toList_numbered _ hcount, toList_numbered _ hcount',
    List.reverse_append, List.reverse_cons, List.append_assoc, List.singleton_append] at htext
  have hnumber (count : Nat) : '~' ∉ (Nat.toDigits 10 count).reverse := by
    simpa using tilde_not_mem_digits count
  obtain ⟨hdigits, hbase⟩ : Nat.toDigits 10 count = Nat.toDigits 10 count' ∧
      base.toList = other.toList := by
    obtain ⟨more, hdigits, hrest⟩ | ⟨more, hdigits, hrest⟩ := List.append_eq_append_iff.mp htext
    all_goals
      cases more with
      | nil =>
          rw [List.append_nil, List.reverse_inj] at hdigits
          rw [List.nil_append, List.cons.injEq, List.reverse_inj] at hrest
          exact ⟨by rw [hdigits], by rw [hrest.2]⟩
      | cons c more =>
          obtain ⟨rfl, -⟩ := List.cons.inj hrest
          exact absurd (hdigits ▸ List.mem_append_right _ List.mem_cons_self) (hnumber _)
  refine ⟨String.toList_inj.mp hbase, ?_⟩
  rw [← Nat.ofDigitChars_ten_toDigits (n := count), hdigits, Nat.ofDigitChars_ten_toDigits]

/-- Each base identifier with the number of its occurrences before it. -/
def counted (before : List String) : List String → List (String × Nat)
  | [] => []
  | base :: rest => (base, before.count base) :: counted (before ++ [base]) rest

theorem mem_counted {before bases : List String} {base : String} {count : Nat} :
    (base, count) ∈ counted before bases ↔
      before.count base ≤ count ∧ count < (before ++ bases).count base := by
  induction bases generalizing before with
  | nil => simp [counted]
  | cons first rest ih =>
      rw [counted, List.mem_cons, ih, Prod.mk.injEq, ← List.append_cons]
      by_cases hfirst : base = first
      · subst hfirst
        simp only [true_and, List.count_append, List.count_cons_self, List.count_nil]
        omega
      · simp [List.count_append, hfirst, Ne.symm hfirst]

theorem nodup_counted (before bases : List String) : (counted before bases).Nodup := by
  induction bases generalizing before with
  | nil => exact .nil
  | cons base rest ih =>
      refine List.nodup_cons.mpr ⟨fun hmem => ?_, ih _⟩
      have hcount := (mem_counted.mp hmem).1
      rw [List.count_append, List.count_cons_self] at hcount
      omega

/-! ## The chunks of a text -/

/-- The base identifiers of chunks, which are counted from `start` on. -/
def bases (start : Nat) (chunks : List Chunk) : List String :=
  chunks.mapIdx fun index chunk => baseId (start + index) (chunk.kind, chunk.name)

theorem ids_ofTokenLists (source : List Char) (before : List String) (lists : List (List Token)) :
    (ofTokenLists source before lists).map Chunk.id =
      (counted before (bases before.length (ofTokenLists source before lists))).map
        fun entry => numbered entry.1 entry.2 := by
  induction lists generalizing before with
  | nil => rfl
  | cons tokens rest ih =>
      have hbases : bases before.length (ofTokenLists source before (tokens :: rest)) =
          baseId before.length (heading tokens) ::
            bases (before ++ [baseId before.length (heading tokens)]).length
              (ofTokenLists source (before ++ [baseId before.length (heading tokens)]) rest) := by
        simp [bases, ofTokenLists, ofTokens, Nat.add_assoc, Nat.add_comm 1]
      rw [hbases, counted, List.map_cons, ← ih]
      rfl

/-- The chunks of a text are told apart by their identifiers unless the base identifier of one of
them reads like that of another one with the number of a repetition. -/
theorem ids_nodup_iff (source : List Char) :
    ((detect source).map Chunk.id).Nodup ↔
      ∀ base count, 0 < count → count < (bases 0 (detect source)).count base →
        numbered base count ∉ bases 0 (detect source) := by
  rw [show (detect source).map Chunk.id = _ from ids_ofTokenLists source [] _,
    List.nodup_map_iff_inj_on (nodup_counted _ _)]
  rw [List.length_nil, ← detect]
  have hmem {base : String} {count : Nat} :
      (base, count) ∈ counted [] (bases 0 (detect source)) ↔
        count < (bases 0 (detect source)).count base := by
    simp [mem_counted]
  constructor
  · intro hinj base count hpos hcount htaken
    have hfirst := hmem.mpr (List.count_pos_iff.mpr htaken)
    have heq := hinj _ (hmem.mpr hcount) _ hfirst rfl
    have hzero := (Prod.mk.inj heq).2
    omega
  · rintro hclear ⟨base, count⟩ hentry ⟨other, count'⟩ hentry' heq
    have hcount := hmem.mp hentry
    have hcount' := hmem.mp hentry'
    dsimp only at heq
    rcases Nat.eq_zero_or_pos count with rfl | hpos <;>
      rcases Nat.eq_zero_or_pos count' with rfl | hpos'
    · exact congrArg (·, 0) heq
    · refine absurd ?_ (hclear other count' hpos' hcount')
      rw [← heq]
      exact List.count_pos_iff.mp (Nat.zero_lt_of_lt hcount)
    · refine absurd ?_ (hclear base count hpos hcount)
      rw [heq]
      exact List.count_pos_iff.mp (Nat.zero_lt_of_lt hcount')
    · obtain ⟨rfl, rfl⟩ := numbered_injective (by omega) (by omega) heq
      rfl

/-- A name that ends like a repetition takes the identifier of one. -/
theorem not_ids_nodup :
    ¬((detect "orb \"A~1\" \x7b\x7d\norb \"A\" \x7b\x7d\norb \"A\" \x7b\x7d\n".toList).map
      Chunk.id).Nodup := by
  decide +kernel

end Chunk
end SceneLang
