import SceneLang.Number.Binary64

/-!
# Positions and spans

A position is a line and a column, both counted from one; a location is a pair of
positions; a span is a half-open range of byte offsets.  Stored forms keep these numbers in
32 bits: moving a line wraps around, moving an offset stops at the largest one.
-/

namespace SceneLang

/-- How many values a stored line, column or offset can take. -/
def wordCount : Nat := twoTo 32

/-- A line and a column, both counted from one. -/
structure Position where
  line : Nat
  column : Nat
deriving DecidableEq, Repr, Inhabited

namespace Position

def start : Position := ⟨1, 1⟩

/-- Positions are ordered by line, then by column. -/
instance : LE Position where
  le p q := p.line < q.line ∨ p.line = q.line ∧ p.column ≤ q.column

theorem le_def {p q : Position} :
    p ≤ q ↔ p.line < q.line ∨ p.line = q.line ∧ p.column ≤ q.column := Iff.rfl

instance (p q : Position) : Decidable (p ≤ q) :=
  inferInstanceAs (Decidable (_ ∨ _))

theorem le_refl (p : Position) : p ≤ p := Or.inr ⟨rfl, Nat.le_refl _⟩

theorem le_trans {p q r : Position} (hpq : p ≤ q) (hqr : q ≤ r) : p ≤ r := by
  rw [le_def] at *
  omega

theorem le_total (p q : Position) : p ≤ q ∨ q ≤ p := by
  simp only [le_def]
  omega

instance : Min Position := minOfLe

instance : Max Position := maxOfLe

/-- The position `lines` lines further down. -/
def down (p : Position) (lines : Nat) : Position :=
  ⟨(p.line + lines) % wordCount, p.column⟩

/-- The written form `line:column`. -/
def text (p : Position) : String :=
  s!"{p.line}:{p.column}"

end Position

/-- Where a construct starts and ends. -/
structure Location where
  start : Position
  stop : Position
deriving DecidableEq, Repr

namespace Location

instance : Inhabited Location := ⟨⟨.start, .start⟩⟩

def merge (a b : Location) : Location :=
  ⟨min a.start b.start, max a.stop b.stop⟩

/-- The location `lines` lines further down; columns stay. -/
def down (a : Location) (lines : Nat) : Location :=
  ⟨a.start.down lines, a.stop.down lines⟩

def containsLine (a : Location) (line : Nat) : Bool :=
  a.start.line ≤ line && line ≤ a.stop.line

/-- The written form `line:column-line:column`. -/
def text (a : Location) : String :=
  s!"{a.start.text}-{a.stop.text}"

end Location

/-- A half-open range of byte offsets. -/
structure Span where
  start : Nat
  stop : Nat
deriving DecidableEq, Repr, Inhabited

namespace Span

/-- The empty span at an offset. -/
def point (offset : Nat) : Span := ⟨offset, offset⟩

def merge (a b : Span) : Span :=
  ⟨min a.start b.start, max a.stop b.stop⟩

/-- The number of bytes covered, zero for an inverted span. -/
def size (a : Span) : Nat :=
  a.stop - a.start

def isEmpty (a : Span) : Bool :=
  a.stop ≤ a.start

/-- The span `bytes` bytes further on; an offset stops at the largest stored one. -/
def shift (a : Span) (bytes : Nat) : Span :=
  ⟨min (a.start + bytes) (wordCount - 1), min (a.stop + bytes) (wordCount - 1)⟩

/-- The written form `start..stop`. -/
def text (a : Span) : String :=
  s!"{a.start}..{a.stop}"

end Span

end SceneLang
