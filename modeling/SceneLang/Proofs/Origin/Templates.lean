import SceneLang.Node.Walk
import SceneLang.Parser.Element
import SceneLang.Proofs.Origin.Reports
import SceneLang.Proofs.Token.Layout

/-!
# Templates of trees

Whatever template an element of a tree has, its name is a token of the text, and what stands in
front of that token is the word `using`, with nothing but layout between the two.
-/

namespace SceneLang

variable {tokens : List Token} {node value : Node} {directive : Directive}

/-! ## Templates of trees -/

/-- The kinds of tokens that can name a template. -/
def TokenKind.namesTemplate (kind : TokenKind) : Bool :=
  kind = .string || kind = .identifier || kind = .unterminatedString

/-- The name stands behind the word `using`, but for layout. -/
def UsedIn (tokens : List Token) (name : String) : Prop :=
  ∃ word token, [word, token] <:+: tokens.filter Token.isPlain ∧ word.isWord "using" = true ∧
    token.kind.namesTemplate = true ∧ token.text = name

/-- Each template of the tree is named in the tokens. -/
def Node.Templated (tokens : List Token) (node : Node) : Prop :=
  ∀ member ∈ node.walk, ∀ name ∈ member.template?, UsedIn tokens name

def Directive.Templated (tokens : List Token) (directive : Directive) : Prop :=
  ∀ body ∈ directive.bodies, ∀ node ∈ body, node.Templated tokens

namespace Node

theorem templated_iff : node.Templated tokens ↔ (∀ name ∈ node.template?, UsedIn tokens name) ∧
    (∀ directive ∈ node.directives, directive.Templated tokens) ∧
      ∀ child ∈ node.children, child.Templated tokens := by
  constructor
  · refine fun h => ⟨h node (mem_walk.mpr (.inl rfl)), ?_, ?_⟩
    · intro directive hdirective body hbody inner hinner member hmem
      exact h member (mem_walk.mpr (.inr (.inl ⟨directive, hdirective, body, hbody, inner, hinner,
        hmem⟩)))
    · intro child hchild member hmem
      exact h member (mem_walk.mpr (.inr (.inr ⟨child, hchild, hmem⟩)))
  · rintro ⟨hown, hdirectives, hchildren⟩ member hmem
    obtain rfl | ⟨directive, hdirective, body, hbody, inner, hinner, hmem⟩ |
      ⟨child, hchild, hmem⟩ := mem_walk.mp hmem
    · exact hown
    · exact hdirectives directive hdirective body hbody inner hinner member hmem
    · exact hchildren child hchild member hmem

theorem Templated.of_same (h : node.Templated tokens) (htemplate : value.template? = node.template?)
    (hdirectives : value.directives = node.directives)
    (hchildren : value.children = node.children) : value.Templated tokens := by
  rw [templated_iff] at h ⊢
  rwa [htemplate, hdirectives, hchildren]

/-- A node that is no element has no template of its own. -/
theorem Templated.of_other (h : node.Templated tokens) (htemplate : value.template? = none)
    (hdirectives : value.directives = node.directives)
    (hchildren : value.children = node.children) : value.Templated tokens := by
  rw [templated_iff] at h ⊢
  rw [htemplate, hdirectives, hchildren]
  exact ⟨(fun _ hname => nomatch hname), h.2⟩

theorem Templated.addChild (h : node.Templated tokens) (hchild : value.Templated tokens) :
    Templated tokens { node with children := node.children ++ [value] } := by
  rw [templated_iff] at h ⊢
  exact ⟨h.1, h.2.1, List.forall_mem_append.mpr ⟨h.2.2, List.forall_mem_singleton.mpr hchild⟩⟩

theorem templated_ofKind (tokens : List Token) (kind : NodeKind) (loc : Location)
    (htemplate : (ofKind kind loc).template? = none) : (ofKind kind loc).Templated tokens := by
  rw [templated_iff, htemplate]
  exact ⟨(fun _ hname => nomatch hname), List.forall_mem_nil _, List.forall_mem_nil _⟩

theorem Templated.attach (h : node.Templated tokens) (hdirective : directive.Templated tokens) :
    (node.attach directive).Templated tokens := by
  unfold Node.attach
  split
  · exact h.of_same rfl rfl rfl
  · exact h.of_same rfl rfl rfl
  · rw [templated_iff] at h ⊢
    exact ⟨h.1, List.forall_mem_append.mpr ⟨h.2.1, List.forall_mem_singleton.mpr hdirective⟩, h.2.2⟩

end Node

/-- A directive that holds no nodes. -/
theorem Directive.templated_of_bodies (h : directive.bodies = []) :
    directive.Templated tokens := by
  rw [Directive.Templated, h]
  exact List.forall_mem_nil _

theorem Directive.templated_of_body {body : List Node} (h : directive.bodies = [body])
    (hbody : ∀ node ∈ body, node.Templated tokens) : directive.Templated tokens := by
  rw [Directive.Templated, h]
  exact List.forall_mem_singleton.mpr hbody

namespace Parser

variable {source : List Char} {state : State} {mark name : Token} {rest rest' : List Token}

/-- What stands behind the word `using` at hand is used. -/
theorem Honest.usedIn (h : Honest source tokens state)
    (hmark : state.visibleFrom 0 = mark :: rest)
    (hname : state.advance.visibleFrom 0 = name :: rest') (hword : mark.isWord "using" = true)
    (hkind : name.kind.namesTemplate = true) : UsedIn tokens name.text := by
  obtain ⟨hmarkKind, -⟩ : mark.kind = .identifier ∧ mark.text = "using" := by
    simpa [Token.isWord] using hword
  obtain ⟨front, gap, rfl, hgap⟩ := h.advance_split hmark hname (by simp [hmarkKind])
  have hplain : mark.isPlain = true := by
    rw [Token.isPlain, hmarkKind]
    rfl
  have hplain' : name.isPlain = true := by
    simp only [TokenKind.namesTemplate, Bool.or_eq_true, decide_eq_true_eq] at hkind
    obtain (hkind | hkind) | hkind := hkind <;> rw [Token.isPlain, hkind] <;> rfl
  refine ⟨mark, name, ⟨front.filter Token.isPlain, rest'.filter Token.isPlain, ?_⟩, hword, hkind,
    rfl⟩
  rw [List.filter_append, List.filter_cons_of_pos hplain, List.filter_append,
    Token.filter_isPlain_of_layout hgap, List.nil_append, List.filter_cons_of_pos hplain']
  simp

end Parser
end SceneLang
