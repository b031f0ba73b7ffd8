import LineCalc.Error

/-!
Steps that print as they go and may end in a fault. What was printed before the fault stays.
-/
namespace LineCalc

structure Transcript (α : Type) where
  printed : String
  outcome : Except Fault α

namespace Transcript

def bind {α β : Type} (first : Transcript α) (next : α → Transcript β) : Transcript β :=
  match first.outcome with
  | .ok a => ⟨first.printed ++ (next a).printed, (next a).outcome⟩
  | .error fault => ⟨first.printed, .error fault⟩

instance : Monad Transcript where
  pure a := ⟨"", .ok a⟩
  bind := bind

def print (text : String) : Transcript Unit := ⟨text, .ok ()⟩

/-- Something that prints nothing. -/
def ofExcept {α : Type} (outcome : Except Fault α) : Transcript α := ⟨"", outcome⟩

end Transcript

end LineCalc
