import SceneLang.Proofs.Incremental.Transparent
import SceneLang.Proofs.Parser.Reports

/-!
# Chunks and whole texts

A text that is parsed chunk by chunk need not come out as it does when it is parsed as a whole.
Each chunk counts its interpolations and its diagnostics for itself, and directives at the end
of a text are a chunk without an element.  What the chunks of a text make up is written out
here, and a session agrees with a parse of the whole text just where that is what the whole
text comes to.
-/

namespace SceneLang

/-! ## Agreement -/

/-- The result of a parse says what a document of the text says. -/
structure IncrementalResult.Agrees (result : IncrementalResult) (document : Document) : Prop where
  root : result.root = document.root
  diagnostics : ∀ d, d ∈ result.diagnostics ↔ d ∈ document.diagnostics
  success : result.success = document.success

/-! ## What roots make up -/

namespace Node

def elements (root : Node) : List Node :=
  if root.isFragment then root.children else [root]

/-- The directives that stand alone next to these elements. -/
def looseDirectives (root : Node) : List Directive :=
  if root.isFragment then root.directives else []

/-- The traits that stand alone next to these elements. -/
def looseTraits (root : Node) : Table TraitConfig :=
  if root.isFragment then root.traits else []

/-- The root that several roots make up; the last trait of a name counts. -/
def together (roots : List Node) (loc : Location) : Node :=
  { Node.fragment (roots.flatMap elements) loc with
    directives := roots.flatMap looseDirectives
    traits := (roots.flatMap looseTraits).foldl
      (fun traits entry => traits.insert entry.1 entry.2) [] }

end Node

namespace Fragment

theorem addRoot_eq (whole node : Node) :
    addRoot whole node =
      { whole with
        children := whole.children ++ node.elements
        directives := whole.directives ++ node.looseDirectives
        traits := node.looseTraits.foldl (fun traits entry => traits.insert entry.1 entry.2)
          whole.traits } := by
  unfold addRoot Node.elements Node.looseDirectives Node.looseTraits
  by_cases hfragment : node.isFragment = true
  · simp only [if_pos hfragment]
  · simp only [if_neg hfragment, List.append_nil, List.foldl_nil]

theorem foldl_addRoot (roots : List Node) (whole : Node) :
    roots.foldl addRoot whole =
      { whole with
        children := whole.children ++ roots.flatMap Node.elements
        directives := whole.directives ++ roots.flatMap Node.looseDirectives
        traits := (roots.flatMap Node.looseTraits).foldl
          (fun traits entry => traits.insert entry.1 entry.2) whole.traits } := by
  induction roots generalizing whole with
  | nil =>
      cases whole
      simp only [List.foldl_nil, List.flatMap_nil, List.append_nil]
  | cons root rest ih =>
      rw [List.foldl_cons, ih, addRoot_eq]
      simp only [List.flatMap_cons, List.append_assoc, List.foldl_append]

theorem assemble_of_several (first second : Node) (rest : List Node) :
    assemble (first :: second :: rest) =
      Node.together (first :: second :: rest)
        (first.loc.merge ((second :: rest).getLastD first).loc) := by
  rw [assemble, foldl_addRoot]
  · rfl
  · exact List.cons_ne_nil second rest

end Fragment

/-! ## Blank texts have no chunks -/

namespace Chunk

theorem Cutter.current_foldl (cutter : Cutter) (tokens : List Token) :
    (tokens.foldl Cutter.take cutter).current = [] ↔
      cutter.current = [] ∧ ∀ token ∈ tokens, token.kind.isLayout = true := by
  induction tokens generalizing cutter with
  | nil => simp
  | cons token rest ih =>
      rw [List.foldl_cons, ih, List.forall_mem_cons, Cutter.take]
      cases hlayout : token.kind.isLayout with
      | true =>
          have hcurrent : (cutter.takeLayout token).current = cutter.current := rfl
          simp [hcurrent]
      | false =>
          have hcurrent : (cutter.takeToken token).current ≠ [] := by
            unfold Cutter.takeToken
            dsimp only
            split <;> simp
          simp [hcurrent]

theorem Cutter.finished_foldl (cutter : Cutter) {tokens : List Token}
    (hlayout : ∀ token ∈ tokens, token.kind.isLayout = true) :
    (tokens.foldl Cutter.take cutter).finished = cutter.finished := by
  induction tokens generalizing cutter with
  | nil => rfl
  | cons token rest ih =>
      rw [List.forall_mem_cons] at hlayout
      rw [List.foldl_cons, ih _ hlayout.2, Cutter.take, if_pos hlayout.1]
      rfl

theorem cut_eq_nil {tokens : List Token} : cut tokens = [] ↔
    ∀ token ∈ tokens.takeWhile (·.kind ≠ .eof), token.kind.isLayout = true := by
  have hcurrent := Cutter.current_foldl .start (tokens.takeWhile (·.kind ≠ .eof))
  constructor
  · intro hcut
    rw [cut, Cutter.chunks] at hcut
    split at hcut
    next hempty => exact (hcurrent.mp (List.isEmpty_iff.mp hempty)).2
    next => exact absurd (List.reverse_eq_nil_iff.mp hcut) (List.cons_ne_nil _ _)
  · intro hlayout
    rw [cut, Cutter.chunks, if_pos (List.isEmpty_iff.mpr (hcurrent.mpr ⟨rfl, hlayout⟩)),
      Cutter.finished_foldl _ hlayout]
    rfl

theorem detect_eq_nil {source : List Char} : Chunk.detect source = [] ↔
    ∀ token ∈ (tokenize source).takeWhile (·.kind ≠ .eof), token.kind.isLayout = true := by
  rw [← cut_eq_nil, Chunk.detect]
  cases cut (tokenize source) with
  | nil => exact iff_of_true rfl rfl
  | cons tokens rest => exact iff_of_false (List.cons_ne_nil _ _) (List.cons_ne_nil _ _)

/-! ## What a text comes to -/

variable (options : ParseOptions) (chunk : Chunk)

def document : Document :=
  Document.parse options chunk.content

def root : Node :=
  (chunk.document options).root.down (chunk.startLine - 1)

def diagnostics : List Diagnostic :=
  (chunk.document options).diagnostics.map (·.relocate (chunk.startLine - 1) chunk.startOffset)

end Chunk

/-- The tree of a text is what the trees of its chunks make up.  A text without chunks has its
tree at its first token, and the chunks have theirs at the start of the text. -/
structure Document.Assembled (options : ParseOptions) (source : List Char) : Prop where
  blank : Chunk.detect source = [] → (tokenize source).head?.map Token.position = some .start
  single : ∀ chunk, Chunk.detect source = [chunk] →
    (Document.parse options source).root = chunk.root options
  several : ∀ first second rest, Chunk.detect source = first :: second :: rest →
    (Document.parse options source).root =
      Node.together ((first :: second :: rest).map (Chunk.root options))
        ((first.root options).loc.merge (((second :: rest).getLastD first).root options).loc)

/-- A text comes to what its chunks come to one by one.  Without room for errors the chunks
never show one, so that there must be none in the text. -/
structure Document.Composed (options : ParseOptions) (source : List Char) : Prop
    extends Document.Assembled options source where
  diagnostics : ∀ d, d ∈ (Document.parse options source).diagnostics ↔
    ∃ chunk ∈ Chunk.detect source, d ∈ chunk.diagnostics options
  success : options.limits.maxErrors = 0 → (Document.parse options source).success = true

/-! ## Exactly where they agree -/

section

variable {options : ParseOptions} {source : List Char}

theorem assemble_of_blank (hchunks : Chunk.detect source = []) :
    Fragment.assemble [] = (Document.parse options source).root ↔
      (tokenize source).head?.map Token.position = some .start := by
  obtain ⟨first, others, htokens⟩ := List.exists_cons_of_ne_nil (ended_tokenize source).ne_nil
  rw [Document.root_of_layout options htokens (Chunk.detect_eq_nil.mp hchunks), htokens,
    List.head?_cons, Option.map_some, Option.some_inj]
  constructor
  · intro hroot
    have hloc := congrArg Node.loc hroot
    exact (congrArg Location.start hloc).symm
  · intro hstart
    rw [hstart]
    rfl

theorem assemble_eq_root_iff :
    Fragment.assemble ((Chunk.detect source).map (Chunk.root options)) =
        (Document.parse options source).root ↔ Document.Assembled options source := by
  match hchunks : Chunk.detect source with
  | [] =>
      rw [List.map_nil, assemble_of_blank hchunks]
      constructor
      · intro hstart
        exact ⟨fun _ => hstart, by simp [hchunks], by simp [hchunks]⟩
      · intro h
        exact h.blank hchunks
  | [chunk] =>
      constructor
      · intro hroot
        refine ⟨by simp [hchunks], fun chunk' hchunks' => ?_, by simp [hchunks]⟩
        rw [hchunks] at hchunks'
        injection hchunks' with hchunk _
        subst hchunk
        exact hroot.symm
      · intro h
        exact (h.single chunk hchunks).symm
  | first :: second :: rest =>
      have hlast : ((second :: rest).map (Chunk.root options)).getLastD (first.root options) =
          ((second :: rest).getLastD first).root options := by
        rw [List.getLastD_eq_getLast?, List.getLast?_map, List.getLastD_eq_getLast?,
          Option.getD_map]
      rw [List.map_cons, List.map_cons, Fragment.assemble_of_several, ← List.map_cons, hlast,
        ← List.map_cons]
      constructor
      · intro hroot
        refine ⟨by simp [hchunks], by simp [hchunks], fun first' second' rest' hchunks' => ?_⟩
        rw [hchunks] at hchunks'
        injection hchunks' with hfirst hchunks'
        injection hchunks' with hsecond hrest
        subst hfirst hsecond hrest
        exact hroot.symm
      · intro h
        exact (h.several first second rest hchunks).symm

theorem any_isError_of_no_room (hroom : options.limits.maxErrors = 0) :
    ((Chunk.detect source).flatMap (Chunk.diagnostics options)).any Diagnostic.isError = false := by
  rw [List.any_flatMap, List.any_eq_false]
  intro chunk _
  rw [Bool.not_eq_true, Chunk.diagnostics, List.any_map]
  exact (Document.any_isError_eq_false options chunk.content).mpr (.inl hroom)

/-- Documents that show the same diagnostics succeed alike, if there is room for an error. -/
theorem success_eq_of_diagnostics {shown : List Diagnostic}
    (hroom : options.limits.maxErrors ≠ 0)
    (hshown : ∀ d, d ∈ shown ↔ d ∈ (Document.parse options source).diagnostics) :
    (Document.parse options source).success = !shown.any Diagnostic.isError := by
  have hany : shown.any Diagnostic.isError =
      (Document.parse options source).diagnostics.any Diagnostic.isError := by
    rw [Bool.eq_iff_iff, List.any_eq_true, List.any_eq_true]
    simp only [hshown]
  rw [Bool.eq_iff_iff, Bool.not_eq_true', hany, Document.any_isError_eq_false]
  exact (or_iff_right hroom).symm

/-- What the chunks of a text answer agrees with the text just where the text comes to what
they come to. -/
theorem agrees_iff_composed {result : IncrementalResult}
    (h : result.answer = answerOf (Fragment.ofSource options source)) :
    result.Agrees (Document.parse options source) ↔ Document.Composed options source := by
  have hroots : (Fragment.ofSource options source).map Fragment.root =
      (Chunk.detect source).map (Chunk.root options) := by
    rw [Fragment.ofSource, List.map_map]
    rfl
  have hall : (Fragment.ofSource options source).flatMap Fragment.diagnostics =
      (Chunk.detect source).flatMap (Chunk.diagnostics options) := by
    rw [Fragment.ofSource, List.flatMap_map]
    rfl
  rw [answerOf, hroots, hall, IncrementalResult.answer, Prod.mk.injEq, Prod.mk.injEq] at h
  obtain ⟨hroot, hdiagnostics, hsuccess⟩ := h
  have hmem (d : Diagnostic) : d ∈ result.diagnostics ↔
      ∃ chunk ∈ Chunk.detect source, d ∈ chunk.diagnostics options := by
    rw [hdiagnostics, List.mem_flatMap]
  have hhidden (hroom : options.limits.maxErrors = 0) : result.success = true := by
    rw [hsuccess, any_isError_of_no_room hroom]
    rfl
  constructor
  · intro hagrees
    have hassembled := assemble_eq_root_iff.mp (hroot.symm.trans hagrees.root)
    refine ⟨hassembled, ?_, ?_⟩
    · intro d
      rw [← hagrees.diagnostics d, hmem]
    · intro hroom
      rw [← hagrees.success]
      exact hhidden hroom
  · intro hcomposed
    have hsame (d : Diagnostic) :
        d ∈ result.diagnostics ↔ d ∈ (Document.parse options source).diagnostics := by
      rw [hmem, hcomposed.diagnostics d]
    constructor
    · exact hroot.trans (assemble_eq_root_iff.mpr hcomposed.toAssembled)
    · exact hsame
    · by_cases hroom : options.limits.maxErrors = 0
      · rw [hhidden hroom, hcomposed.success hroom]
      · rw [success_eq_of_diagnostics hroom hsame, hsuccess, hdiagnostics]

end

namespace Session

/-- As long as no two chunks of its texts share a digest, a session answers a text as a parse of
the whole text does exactly if the text comes to what its chunks come to one by one, whatever
has been parsed, dropped or forgotten before. -/
theorem run_agrees_iff (options : ParseOptions) (capacity : Nat) (steps : List Step)
    (hapart : Digest.Apart ((sources steps).flatMap Chunk.contents)) :
    ((new options capacity).run steps).1.length = (sources steps).length ∧
      ∀ (index : Nat) (result : IncrementalResult) (source : List Char),
        ((new options capacity).run steps).1[index]? = some result →
        (sources steps)[index]? = some source →
          (result.Agrees (Document.parse options source) ↔ Document.Composed options source) := by
  have hanswers : ((new options capacity).run steps).1.map IncrementalResult.answer =
      (sources steps).map fun source => answerOf (Fragment.ofSource options source) :=
    (sound_new capacity).run hapart fun _ hmem => hmem
  constructor
  · simpa using congrArg List.length hanswers
  · intro index result source hresult hsource
    have hanswer := congrArg (·[index]?) hanswers
    simp only [List.getElem?_map, hresult, hsource, Option.map_some] at hanswer
    exact agrees_iff_composed (Option.some.inj hanswer)

/-- Two elements, each with an interpolation. -/
def interpolations : List Char :=
  "orb a \x7b v: $\x7bx\x7d \x7d\norb b \x7b v: $\x7by\x7d \x7d\n".toList

/-- The identifiers of the interpolations that the children of a root have as their `v`. -/
def identifiers (root : Node) : List (Option String) :=
  root.children.map fun child =>
    match child.properties.find? "v" with
    | some (.interpolation id _) => some id
    | _ => none

/-- Each chunk counts its interpolations from zero, and the whole text goes on counting. -/
theorem identifiers_interpolations :
    ((new .default 2).run [.parse interpolations]).1.map (fun result => identifiers result.root) =
        [[some "expr_0", some "expr_0"]] ∧
      identifiers (Document.parse .default interpolations).root =
        [some "expr_0", some "expr_1"] := by
  decide +kernel

theorem exists_not_agrees :
    ∃ result, ((new .default 2).run [.parse interpolations]).1[0]? = some result ∧
      ¬result.Agrees (Document.parse .default interpolations) := by
  obtain ⟨hchunks, hwhole⟩ := identifiers_interpolations
  have hfirst := congrArg (·[0]?) hchunks
  simp only [List.getElem?_map, Option.map_eq_some_iff, List.getElem?_cons_zero] at hfirst
  obtain ⟨result, hresult, hidentifiers⟩ := hfirst
  refine ⟨result, hresult, fun hagrees => ?_⟩
  rw [hagrees.root, hwhole] at hidentifiers
  exact absurd hidentifiers (by decide)

theorem run_disagrees :
    ¬∀ result ∈ ((new .default 2).run [.parse interpolations]).1,
      result.Agrees (Document.parse .default interpolations) := by
  obtain ⟨result, hresult, hdisagrees⟩ := exists_not_agrees
  intro hagrees
  exact hdisagrees (hagrees result (List.mem_of_getElem? hresult))

theorem interpolations_not_composed :
    Digest.Apart ((sources [.parse interpolations]).flatMap Chunk.contents) ∧
      ¬Document.Composed .default interpolations := by
  have hapart : Digest.Apart ((sources [.parse interpolations]).flatMap Chunk.contents) := by
    decide +kernel
  obtain ⟨result, hresult, hdisagrees⟩ := exists_not_agrees
  have hiff := (run_agrees_iff .default 2 [.parse interpolations] hapart).2 0 result
    interpolations hresult rfl
  exact ⟨hapart, fun hcomposed => hdisagrees (hiff.mpr hcomposed)⟩

end Session

end SceneLang
