namespace Scriptlet

/-- A place in a program text. Lines and columns count from one, but whoever builds the tree owns
the numbering, so any pair of words is a position. -/
structure Position where
  line : UInt32 := 0
  column : UInt32 := 0
  deriving DecidableEq

namespace Position

instance : LE Position :=
  ⟨fun p q => p.line < q.line ∨ p.line = q.line ∧ p.column ≤ q.column⟩

instance (p q : Position) : Decidable (p ≤ q) :=
  inferInstanceAs (Decidable (p.line < q.line ∨ p.line = q.line ∧ p.column ≤ q.column))

instance : Min Position := minOfLe

instance : Max Position := maxOfLe

theorem le_def (p q : Position) :
    p ≤ q ↔ p.line < q.line ∨ p.line = q.line ∧ p.column ≤ q.column :=
  Iff.rfl

end Position

structure Span where
  start : Position := {}
  stop : Position := {}
  deriving DecidableEq

namespace Span

def point (line column : UInt32) : Span :=
  ⟨⟨line, column⟩, ⟨line, column⟩⟩

def Covers (a b : Span) : Prop :=
  a.start ≤ b.start ∧ b.stop ≤ a.stop

instance (a b : Span) : Decidable (a.Covers b) :=
  inferInstanceAs (Decidable (a.start ≤ b.start ∧ b.stop ≤ a.stop))

def hull (a b : Span) : Span :=
  ⟨min a.start b.start, max a.stop b.stop⟩

def text (s : Span) : String :=
  s!"[line {s.start.line}:{s.start.column}]"

end Span

end Scriptlet
