namespace Stencil

/-- Events in order, and an answer or else an error. -/
structure Traced (ε φ α : Type) where
  events : List ε
  answer : Except φ α

namespace Traced

variable {ε φ α β : Type}

/-- Two parts one after the other; the second is left out when the first has no answer. -/
def andThen (x : Traced ε φ α) (f : α → Traced ε φ β) : Traced ε φ β :=
  match x.answer with
  | .error e => ⟨x.events, .error e⟩
  | .ok a =>
    let y := f a
    ⟨x.events ++ y.events, y.answer⟩

instance : Monad (Traced ε φ) where
  pure a := ⟨[], .ok a⟩
  bind := andThen

def tell (e : ε) : Traced ε φ Unit := ⟨[e], .ok ()⟩

def ofExcept (r : Except φ α) : Traced ε φ α := ⟨[], r⟩

def translate {ε' φ' : Type} (x : Traced ε φ α) (events : ε → List ε') (error : φ → φ') :
    Traced ε' φ' α :=
  ⟨x.events.flatMap events, x.answer.mapError error⟩

end Traced
end Stencil
