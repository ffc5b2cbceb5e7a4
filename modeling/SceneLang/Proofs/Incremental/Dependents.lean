import SceneLang.Incremental
import SceneLang.Proofs.Chunk.Content
import SceneLang.Proofs.Origin.Documents

/-!
# Chunks that use templates

A chunk that refers to a name is parsed again when a chunk of that name has been edited or removed.
The templates in the tree of a chunk are among the names that it refers to, unless they are passed
over.
-/

namespace SceneLang

/-! ## References of chunks

The names that a chunk refers to are read off its tokens one by one, without its being parsed.  A
name behind `using` is among them wherever the layout stands, but for few places in which it is
passed over.
-/

open Movable (move)

variable {tokens : List Token} {name : String}

/-- Two neighbours among the tokens that pass a test have only others between them. -/
theorem exists_split_of_filter {α : Type} {list : List α} {p : α → Bool} {a b : α}
    (h : [a, b] <:+: list.filter p) :
    ∃ front gap back, list = front ++ a :: (gap ++ b :: back) ∧ ∀ x ∈ gap, p x = false := by
  obtain ⟨before, after, h⟩ := h
  rw [List.append_assoc] at h
  obtain ⟨front, rest, rfl, -, hrest⟩ := List.filter_eq_append_iff.mp h.symm
  obtain ⟨others, rest, rfl, -, -, hrest⟩ := List.filter_eq_cons_iff.mp hrest
  obtain ⟨gap, back, rfl, hgap, -, -⟩ := List.filter_eq_cons_iff.mp hrest
  refine ⟨front ++ others, gap, back, by simp, fun x hmem => ?_⟩
  exact Bool.eq_false_iff.mpr (hgap x hmem)

theorem UsedIn.exists_split (h : UsedIn tokens name) :
    ∃ front word gap token back, tokens = front ++ word :: (gap ++ token :: back) ∧
      word.isWord "using" = true ∧ token.kind.namesTemplate = true ∧ token.text = name := by
  obtain ⟨word, token, hnear, hword, hkind, htext⟩ := h
  obtain ⟨front, gap, back, hsplit, -⟩ := exists_split_of_filter hnear
  exact ⟨front, word, gap, token, back, hsplit, hword, hkind, htext⟩

namespace Chunk

variable {keyword : Option Nat} {own : Option String} {front back gap : List Token}
  {token word : Token}

/-! ## Names among tokens -/

/-- What the content of a chunk uses on its own, the tokens of the chunk do. -/
theorem ReadsAs.usedIn {chunk : Chunk} (h : chunk.ReadsAs tokens)
    (hused : UsedIn (tokenize chunk.content) name) : UsedIn tokens name := by
  obtain ⟨word, token, hnear, hword, hkind, htext⟩ := hused
  let shift : Shift := ⟨chunk.startLine - 1, chunk.startOffset, 0⟩
  have hmoved : (move shift (tokenize chunk.content)).filter Token.isPlain =
      move shift ((tokenize chunk.content).filter Token.isPlain) := List.filter_map
  refine ⟨move shift word, move shift token, ?_, hword, hkind, htext⟩
  rw [← h, hmoved]
  exact hnear.map (move shift)

end Chunk
end SceneLang

namespace SceneLang

variable {source : List Char} {name : String}

namespace Incremental

variable {state : Incremental} {cache : Cache Fragment} {chunk : Chunk × Digest}
  {chunks : List (Chunk × Digest)}

/-! ## What is parsed again -/

/-- The fragments that a parse puts together, each with whether it comes from the cache. -/
def fragments (state : Incremental) (source : List Char) (cache : Cache Fragment) :
    List (Fragment × Bool) :=
  (fragmentsOf state.options (fun chunk => state.isChanged chunk ||
    (state.changedNames (chunksOf source)).any chunk.1.refersTo) (chunksOf source) cache).1

theorem parse_fragments (state : Incremental) (source : List Char) (cache : Cache Fragment) :
    (state.parse source cache).1 =
      { root := Fragment.assemble ((state.fragments source cache).map (·.1.root))
        cached := (state.fragments source cache).countP (·.2)
        fresh := (state.fragments source cache).countP (!·.2)
        changed := state.changedIds (chunksOf source)
        diagnostics := (state.fragments source cache).flatMap (·.1.diagnostics) } :=
  rfl

end Incremental

namespace Chunk

/-! ## Templates -/

end Chunk
end SceneLang
