import SoloCall.Text.Word

namespace SoloCall

/-- A recognised function header. The parameter text is kept as written; the indent counts the
blanks before the header and is zero where braces delimit bodies. -/
structure Header where
  name : Text
  params : Text
  indent : Nat := 0
  deriving DecidableEq, Repr

namespace Header

structure Cut where
  front : Text
  inside : Text
  rest : Text

def cut? (line : Text) : Option Cut := do
  let (front, after) ← Text.cut? '(' line
  let (inside, rest) ← Text.cut? ')' after
  return ⟨front, inside, rest⟩

theorem cut?_eq_some {line : Text} {k : Cut} (h : cut? line = some k) :
    line = k.front ++ '(' :: (k.inside ++ ')' :: k.rest) ∧ '(' ∉ k.front ∧ ')' ∉ k.inside := by
  simp only [cut?, Option.bind_eq_bind, Option.bind_eq_some_iff] at h
  obtain ⟨⟨front, after⟩, h₁, ⟨inside, rest⟩, h₂, h₃⟩ := h
  obtain rfl := Option.some.inj h₃
  obtain ⟨rfl, hf⟩ := Text.cut?_eq_some h₁
  obtain ⟨rfl, hi⟩ := Text.cut?_eq_some h₂
  exact ⟨rfl, hf, hi⟩

end Header

end SoloCall
