import SceneLang.Chunk

/-!
# What tokens are cut into

The lists that tokens are cut into lie one behind the other, and what they leave out is layout.
Each of them begins and ends with a token that is no layout; in front of every list but the first
one there is layout, behind a token that is none.  All this is kept by the cutter with every token
that it takes.
-/

namespace SceneLang
namespace Chunk

/-- Layout, if anything. -/
def IsGap (tokens : List Token) : Prop :=
  ∀ token ∈ tokens, token.kind.isLayout = true

theorem isGap_nil : IsGap [] :=
  List.forall_mem_nil _

theorem IsGap.append {front back : List Token} (h : IsGap front) (hback : IsGap back) :
    IsGap (front ++ back) :=
  List.forall_mem_append.mpr ⟨h, hback⟩

theorem IsGap.reverse {tokens : List Token} (h : IsGap tokens) : IsGap tokens.reverse :=
  fun token hmem => h token (List.mem_reverse.mp hmem)

/-- A token that is no layout at either end. -/
structure Framed (tokens : List Token) : Prop where
  first : ∃ first ∈ tokens.head?, first.kind.isLayout = false
  last : ∃ last ∈ tokens.getLast?, last.kind.isLayout = false

theorem framed_singleton {token : Token} (htoken : token.kind.isLayout = false) :
    Framed [token] :=
  ⟨⟨token, rfl, htoken⟩, ⟨token, rfl, htoken⟩⟩

/-- A framed list, with more behind it up to another token that is no layout. -/
theorem Framed.concat {tokens more : List Token} {token : Token} (h : Framed tokens)
    (htoken : token.kind.isLayout = false) : Framed (tokens ++ more ++ [token]) where
  first := by
    obtain ⟨first, hfirst, hkind⟩ := h.first
    obtain ⟨rest, rfl⟩ := List.head?_eq_some_iff.mp hfirst
    exact ⟨first, rfl, hkind⟩
  last := ⟨token, List.getLast?_concat, htoken⟩

/-- Layout, or tokens up to some layout behind one that is none. -/
def Separates (front : List Token) : Prop :=
  IsGap front ∨ ∃ before last mark gap, front = before ++ last :: mark :: gap ∧
    last.kind.isLayout = false ∧ mark.kind.isLayout = true ∧ IsGap gap

theorem separates_of_framed {front tokens gap : List Token} (h : Framed tokens) (hgap : IsGap gap)
    (hopen : gap ≠ []) : Separates (front ++ tokens ++ gap) := by
  obtain ⟨last, hlast, hkind⟩ := h.last
  obtain ⟨before, rfl⟩ := List.getLast?_eq_some_iff.mp hlast
  obtain ⟨mark, gap, rfl⟩ := List.exists_cons_of_ne_nil hopen
  obtain ⟨hmark, hgap⟩ := List.forall_mem_cons.mp hgap
  exact .inr ⟨front ++ before, last, mark, gap, by simp, hkind, hmark, hgap⟩

/-- Nothing separates what ends with a token that is no layout. -/
theorem Framed.not_separates {front tokens : List Token} (h : Framed tokens) :
    ¬Separates (front ++ tokens) := by
  obtain ⟨last, hlast, hkind⟩ := h.last
  obtain ⟨before, rfl⟩ := List.getLast?_eq_some_iff.mp hlast
  have hends {gap more : List Token} (hgap : IsGap gap) (hnonempty : gap ≠ [])
      (hsplit : front ++ (before ++ [last]) = more ++ gap) : False := by
    have hlast := congrArg List.getLast? hsplit
    rw [← List.append_assoc, List.getLast?_concat, List.getLast?_append,
      Option.or_of_isSome (by simpa using hnonempty)] at hlast
    rw [hgap last (List.mem_of_getLast? hlast.symm)] at hkind
    contradiction
  rintro (hgap | ⟨earlier, other, mark, gap, hsplit, -, hmark, hgap⟩)
  · exact hends hgap (by simp) (List.nil_append _).symm
  · rw [List.append_cons earlier] at hsplit
    exact hends (List.forall_mem_cons.mpr ⟨hmark, hgap⟩) (List.cons_ne_nil _ _) hsplit

/-- These tokens are cut into these lists. -/
inductive Cuts : List Token → List (List Token) → Prop
  | none {lead : List Token} (hlead : IsGap lead) : Cuts lead []
  | next {front tokens gap : List Token} {lists : List (List Token)} (hfront : Cuts front lists)
      (hseparates : Separates front) (hframed : Framed tokens) (hgap : IsGap gap) :
      Cuts (front ++ tokens ++ gap) (lists ++ [tokens])

/-! ## What the cutter keeps -/

namespace Cutter

/-- The tokens that a cutter has taken are those of its finished lists, those of the list at hand
and the layout behind them. -/
structure Keeps (cutter : Cutter) (taken : List Token) : Prop where
  layout : IsGap cutter.layout
  framed : cutter.current ≠ [] → Framed cutter.current.reverse
  first : cutter.current = [] → cutter.finished = [] ∧ cutter.hasElement = false
  ended : cutter.itemEnded = true → cutter.layout ≠ []
  front : ∃ front, taken = front ++ cutter.current.reverse ++ cutter.layout.reverse ∧
    Cuts front cutter.finished.reverse ∧ Separates front

variable {cutter : Cutter} {taken : List Token} {token : Token}

theorem keeps_start : start.Keeps [] where
  layout := isGap_nil
  framed := fun h => absurd rfl h
  first := fun _ => ⟨rfl, rfl⟩
  ended := fun h => Bool.noConfusion h
  front := ⟨[], rfl, .none isGap_nil, .inl isGap_nil⟩

theorem Keeps.takeLayout (h : cutter.Keeps taken) (htoken : token.kind.isLayout = true) :
    (cutter.takeLayout token).Keeps (taken ++ [token]) where
  layout := List.forall_mem_cons.mpr ⟨htoken, h.layout⟩
  framed := h.framed
  first := h.first
  ended := fun _ => List.cons_ne_nil _ _
  front := by
    obtain ⟨front, htaken, hcuts⟩ := h.front
    refine ⟨front, ?_, hcuts⟩
    simp [Cutter.takeLayout, htaken]

/-- No list has been begun as long as all tokens taken are layout. -/
theorem Keeps.isGap (h : cutter.Keeps taken) (hcurrent : cutter.current = []) : IsGap taken := by
  obtain ⟨front, htaken, hcuts, -⟩ := h.front
  rw [(h.first hcurrent).1] at hcuts
  rw [htaken, hcurrent, List.reverse_nil, List.append_nil]
  generalize hlists : [].reverse = lists at hcuts
  cases hcuts with
  | none hlead => exact hlead.append h.layout.reverse
  | next => simp at hlists

/-- A token behind the end of a line begins a list of its own: the list at hand has an element, so
that it is not empty, and the end of the line has left layout behind it. -/
theorem Keeps.begin (h : cutter.Keeps taken) (htoken : token.kind.isLayout = false)
    (hbegins : (cutter.atTop && cutter.itemEnded && cutter.hasElement) = true) :
    (cutter.takeToken token).Keeps (taken ++ [token]) := by
  obtain ⟨hended, helement⟩ : cutter.itemEnded = true ∧ cutter.hasElement = true := by
    simp only [Bool.and_eq_true] at hbegins
    exact ⟨hbegins.1.2, hbegins.2⟩
  have hcurrent : cutter.current ≠ [] := by
    intro hnil
    rw [(h.first hnil).2] at helement
    contradiction
  have hframed := h.framed hcurrent
  have hopen : cutter.layout.reverse ≠ [] := by simpa using h.ended hended
  obtain ⟨front, htaken, hcuts, hseparates⟩ := h.front
  constructor <;> simp only [takeToken, hbegins, Bool.true_or, if_true]
  · exact isGap_nil
  · exact fun _ => framed_singleton htoken
  · exact fun hnil => absurd hnil (List.cons_ne_nil _ _)
  · exact fun hended => Bool.noConfusion hended
  · refine ⟨taken, by simp, ?_, ?_⟩
    · rw [List.reverse_cons, htaken]
      exact hcuts.next hseparates hframed h.layout.reverse
    · exact htaken ▸ separates_of_framed hframed h.layout.reverse hopen

/-- Any other token goes on with the list at hand, or begins the first one. -/
theorem Keeps.continue (h : cutter.Keeps taken) (htoken : token.kind.isLayout = false)
    (hbegins : (cutter.atTop && cutter.itemEnded && cutter.hasElement) = false) :
    (cutter.takeToken token).Keeps (taken ++ [token]) := by
  obtain ⟨front, htaken, hcuts, hseparates⟩ := h.front
  by_cases hcurrent : cutter.current = []
  · have hfinished := (h.first hcurrent).1
    have hlead := h.isGap hcurrent
    constructor <;> simp only [takeToken, hbegins, hcurrent, Bool.false_eq_true, Bool.false_or,
      List.isEmpty_nil, if_true, if_false]
    · exact isGap_nil
    · exact fun _ => framed_singleton htoken
    · exact fun hnil => absurd hnil (List.cons_ne_nil _ _)
    · exact False.elim
    · rw [hfinished]
      exact ⟨taken, by simp, .none hlead, .inl hlead⟩
  · have hempty : cutter.current.isEmpty = false := by simpa using hcurrent
    constructor <;> simp only [takeToken, hbegins, hempty, Bool.false_eq_true, Bool.or_false,
      if_false]
    · exact isGap_nil
    · intro _
      rw [List.reverse_cons, List.reverse_append]
      exact (h.framed hcurrent).concat htoken
    · exact fun hnil => absurd hnil (List.cons_ne_nil _ _)
    · exact False.elim
    · exact ⟨front, by simp [htaken], hcuts, hseparates⟩

theorem Keeps.take (h : cutter.Keeps taken) (token : Token) :
    (cutter.take token).Keeps (taken ++ [token]) := by
  unfold Cutter.take
  split
  next htoken => exact h.takeLayout htoken
  next htoken =>
    have htoken := eq_false_of_ne_true htoken
    cases hbegins : cutter.atTop && cutter.itemEnded && cutter.hasElement with
    | true => exact h.begin htoken hbegins
    | false => exact h.continue htoken hbegins

theorem Keeps.foldl (h : cutter.Keeps taken) (tokens : List Token) :
    (tokens.foldl Cutter.take cutter).Keeps (taken ++ tokens) := by
  induction tokens generalizing cutter taken with
  | nil => simpa using h
  | cons token rest ih =>
      rw [List.append_cons]
      exact ih (h.take token)

theorem Keeps.cuts (h : cutter.Keeps taken) : Cuts taken cutter.chunks := by
  obtain ⟨front, htaken, hcuts, hseparates⟩ := h.front
  unfold chunks
  split
  next hempty =>
    have hcurrent := List.isEmpty_iff.mp hempty
    rw [(h.first hcurrent).1]
    exact .none (h.isGap hcurrent)
  next hempty =>
    have hframed := h.framed (by simpa using hempty)
    rw [List.reverse_cons, htaken]
    exact hcuts.next hseparates hframed h.layout.reverse

end Cutter

/-- The tokens up to the end are cut into the lists of the chunks. -/
theorem cuts_cut (tokens : List Token) :
    Cuts (tokens.takeWhile (·.kind ≠ .eof)) (cut tokens) :=
  (Cutter.keeps_start.foldl _).cuts

/-! ## Where the lists lie -/

/-- The list stands behind this front of the tokens. -/
structure CutBehind (tokens front list : List Token) : Prop where
  split : ∃ back, tokens = front ++ list ++ back
  separates : Separates front
  framed : Framed list

theorem CutBehind.append {tokens front list : List Token} (h : CutBehind tokens front list)
    (more : List Token) : CutBehind (tokens ++ more) front list where
  split := by
    obtain ⟨back, rfl⟩ := h.split
    exact ⟨back ++ more, List.append_assoc ..⟩
  separates := h.separates
  framed := h.framed

namespace Cuts

variable {tokens : List Token} {lists : List (List Token)}

/-- Every list stands behind a front that holds the lists before it. -/
theorem behind (h : Cuts tokens lists) :
    (∀ list ∈ lists, list ⊆ tokens ∧ ∃ front, CutBehind tokens front list) ∧
      lists.Pairwise fun before list => ∃ front, CutBehind tokens front list ∧ before ⊆ front := by
  induction h with
  | none => exact ⟨List.forall_mem_nil _, .nil⟩
  | @next front list gap lists _ hseparates hframed _ ih =>
      obtain ⟨hbehind, hpairwise⟩ := ih
      have hlast : CutBehind (front ++ list ++ gap) front list := ⟨⟨gap, rfl⟩, hseparates, hframed⟩
      constructor
      · intro other hmem
        obtain hmem | hmem := List.mem_append.mp hmem
        · obtain ⟨hsub, before, hcut⟩ := hbehind other hmem
          rw [List.append_assoc]
          exact ⟨List.subset_append_of_subset_left _ hsub, before, hcut.append _⟩
        · rw [List.mem_singleton.mp hmem]
          refine ⟨?_, front, hlast⟩
          exact List.subset_append_of_subset_left _ (List.subset_append_right _ _)
      · rw [List.pairwise_append]
        refine ⟨hpairwise.imp ?_, List.pairwise_singleton _ _, ?_⟩
        · rintro a b ⟨before, hcut, hsub⟩
          rw [List.append_assoc]
          exact ⟨before, hcut.append _, hsub⟩
        · intro before hmem other hother
          rw [List.mem_singleton.mp hother]
          exact ⟨front, hlast, (hbehind before hmem).1⟩

/-- Behind every list that is not the last thing there is layout. -/
theorem exists_split (h : Cuts tokens lists) : ∀ list ∈ lists, ∃ front back,
    tokens = front ++ list ++ back ∧ Separates front ∧ Framed list ∧
      ∀ next ∈ back.head?, next.kind.isLayout = true := by
  induction h with
  | none => exact List.forall_mem_nil _
  | @next front list gap lists _ hseparates hframed hgap ih =>
      intro other hmem
      obtain hmem | hmem := List.mem_append.mp hmem
      · obtain ⟨before, back, rfl, hbefore, hother, hback⟩ := ih other hmem
        cases back with
        | nil =>
            rw [List.append_nil] at hseparates
            exact absurd hseparates hother.not_separates
        | cons next back =>
            exact ⟨before, next :: back ++ list ++ gap, by simp, hbefore, hother, hback⟩
      · rw [List.mem_singleton.mp hmem]
        exact ⟨front, gap, rfl, hseparates, hframed,
          fun next hnext => hgap next (List.mem_of_mem_head? hnext)⟩

/-- Nothing but layout is left out. -/
theorem exists_mem (h : Cuts tokens lists) {token : Token} (hmem : token ∈ tokens)
    (htoken : token.kind.isLayout = false) : ∃ list ∈ lists, token ∈ list := by
  have houtside {gap : List Token} (hgap : IsGap gap) (hin : token ∈ gap) : False := by
    rw [hgap token hin] at htoken
    contradiction
  induction h with
  | none hlead => exact (houtside hlead hmem).elim
  | @next front list gap lists _ _ _ hgap ih =>
      obtain hmem | hmem := List.mem_append.mp hmem
      · obtain hmem | hmem := List.mem_append.mp hmem
        · obtain ⟨other, hother, hin⟩ := ih hmem
          exact ⟨other, List.mem_append_left _ hother, hin⟩
        · exact ⟨list, List.mem_append_right _ List.mem_cons_self, hmem⟩
      · exact (houtside hgap hmem).elim

end Cuts

end Chunk
end SceneLang
