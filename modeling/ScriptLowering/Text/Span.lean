/-! # Source spans

A span is a half-open range of byte offsets into a source text, or the synthetic span of
something a compiler pass made up. Joining two spans gives the smallest span covering both,
and the synthetic span is the unit of joining: it covers nothing.
-/

namespace ScriptLowering

/-- A half-open byte range `start..stop` of a source text, or the span of made-up code. -/
inductive Span where
  | range (start stop : Nat)
  | synthetic
  deriving DecidableEq, Repr, Inhabited

namespace Span

/-- The empty span at one offset. -/
def point (offset : Nat) : Span := .range offset offset

/-- The first byte covered, none for made-up code. -/
def start? : Span → Option Nat
  | .range start _ => some start
  | .synthetic => none

/-- The byte after the last one covered, none for made-up code. -/
def stop? : Span → Option Nat
  | .range _ stop => some stop
  | .synthetic => none

/-- Whether the span stands for made-up code. -/
def isSynthetic : Span → Bool
  | .range _ _ => false
  | .synthetic => true

/-- The smallest span covering both; made-up code covers nothing. -/
def cover : Span → Span → Span
  | .synthetic, other => other
  | span, .synthetic => span
  | .range a b, .range c d => .range (min a c) (max b d)

/-- Spans read `start..stop`, and made-up code reads `<no source>`. -/
def render : Span → String
  | .range start stop => s!"{start}..{stop}"
  | .synthetic => "<no source>"

@[simp] theorem cover_synthetic_left (span : Span) : cover .synthetic span = span := by
  cases span <;> rfl

@[simp] theorem cover_synthetic_right (span : Span) : cover span .synthetic = span := by
  cases span <;> rfl

theorem cover_range (a b c d : Nat) :
    cover (.range a b) (.range c d) = .range (min a c) (max b d) := rfl

end Span

end ScriptLowering
